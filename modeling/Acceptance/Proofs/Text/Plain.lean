import Mathlib.Data.List.Basic
import Acceptance.Codeunit.Naming
import Acceptance.Text.Word
import Acceptance.Proofs.Text.Blank

/-!
# Plain names

Names that the code gets from a plan are made of ASCII letters, ASCII digits and low lines. Such a
character is a word character and takes one byte; it is neither a blank nor a mark of any kind.
Numbers are written in ASCII digits and read back as they were.

Main results:

* `isPlain_procedureName`: the name of a test is plain.
* `length_cut`: cutting a plain text counts characters.
* `decimal?_toDigits`: a number that is written can be read.
-/

namespace Acceptance

open Text

namespace Text

/-! ## Characters -/

/-- A property of all ASCII characters can be tried on their code points. -/
theorem ascii_induction {p : Char → Prop} (h : ∀ n < 128, p (Char.ofNat n)) {c : Char}
    (hc : c.toNat < 128) : p c := by
  have := h c.toNat hc
  rwa [Char.ofNat_toNat] at this

theorem toNat_lt_of_isAlphanum {c : Char} (h : c.isAlphanum = true) : c.toNat < 128 := by
  have hmax : c.val ≤ 'Z'.val ∨ c.val ≤ 'z'.val ∨ c.val ≤ '9'.val := by
    rcases Bool.or_eq_true_iff.1 h with h | h
    · rcases Bool.or_eq_true_iff.1 h with h | h
      · exact .inl (of_decide_eq_true h).2
      · exact .inr (.inl (of_decide_eq_true (Bool.and_eq_true_iff.1 h).2))
    · exact .inr (.inr (of_decide_eq_true (Bool.and_eq_true_iff.1 h).2))
  show c.val.toNat < 128
  simp only [UInt32.le_iff_toNat_le] at hmax
  rcases hmax with hc | hc | hc
  · exact Nat.lt_of_le_of_lt hc (by decide)
  · exact Nat.lt_of_le_of_lt hc (by decide)
  · exact Nat.lt_of_le_of_lt hc (by decide)

theorem isPlainNameChar_of_isAlphanum {c : Char} (h : c.isAlphanum = true) :
    isPlainNameChar c = true := by
  rw [isPlainNameChar, h]
  rfl

theorem toNat_lt_of_isPlainNameChar {c : Char} (h : isPlainNameChar c = true) : c.toNat < 128 := by
  rw [isPlainNameChar, Bool.or_eq_true] at h
  rcases h with h | h
  · exact toNat_lt_of_isAlphanum h
  · rw [beq_iff_eq.1 h]
    decide

/-- Whether a character is a blank, or one of the marks that mean something in code. -/
def isMark (c : Char) : Bool :=
  isBlank c || ['/', '\'', '"', '[', ']', '(', ')', ':', ';', '.', ',', '='].contains c

/-- What tells a plain name from everything around it. -/
theorem plain_spec {c : Char} (h : isPlainNameChar c = true) :
    isMark c = false ∧ isNameChar c = true ∧ isWordChar c = true ∧ c.utf8Size = 1 := by
  have key : ∀ n < 128, isPlainNameChar (Char.ofNat n) = true →
      isMark (Char.ofNat n) = false ∧ isNameChar (Char.ofNat n) = true ∧
        isWordChar (Char.ofNat n) = true ∧ (Char.ofNat n).utf8Size = 1 := by
    decide
  exact ascii_induction (p := fun c => isPlainNameChar c = true →
    isMark c = false ∧ isNameChar c = true ∧ isWordChar c = true ∧ c.utf8Size = 1) key
    (toNat_lt_of_isPlainNameChar h) h

theorem not_isBlank_of_plain {c : Char} (h : isPlainNameChar c = true) : isBlank c = false := by
  have := (plain_spec h).1
  rw [isMark, Bool.or_eq_false_iff] at this
  exact this.1

/-- No mark is a character of a plain name. -/
theorem ne_of_plain {c m : Char} (h : isPlainNameChar c = true) (hm : isMark m = true) : c ≠ m := by
  rintro rfl
  rw [(plain_spec h).1] at hm
  cases hm

theorem isAlphanum_of_isDigit {c : Char} (h : c.isDigit = true) : c.isAlphanum = true := by
  rw [Char.isAlphanum, h, Bool.or_true]

/-- The characters that stand for a letter. -/
theorem isFoldedLetter_cases {c : Char} (h : isFoldedLetter c = true) :
    c = 'ſ' ∨ c = '\u212a' ∨ c.isAlpha = true := by
  rw [isFoldedLetter, foldLetter] at h
  split_ifs at h with hs hk
  · exact .inl (beq_iff_eq.1 hs)
  · exact .inr (.inl (beq_iff_eq.1 hk))
  refine .inr (.inr ?_)
  by_cases hlt : c.toNat < 128
  · have ascii : ∀ n < 128,
        (Char.ofNat n).toLower.isAlpha = true → (Char.ofNat n).isAlpha = true := by decide
    exact ascii_induction (p := fun c => c.toLower.isAlpha = true → c.isAlpha = true) ascii hlt h
  · -- no other character has an ASCII letter as its lower case
    have hlower : c.toLower = c := by
      delta Char.toLower
      refine dif_neg ?_
      rintro ⟨-, hz⟩
      have : c.toNat ≤ 'Z'.toNat := UInt32.le_iff_toNat_le.1 hz
      exact hlt (Nat.lt_of_le_of_lt this (by decide))
    rwa [hlower] at h

theorem isPlainNameChar_of_isAlpha {c : Char} (h : c.isAlpha = true) : isPlainNameChar c = true :=
  isPlainNameChar_of_isAlphanum (by rw [Char.isAlphanum, h]; rfl)

theorem isWordChar_of_isFoldedLetter {c : Char} (h : isFoldedLetter c = true) :
    isWordChar c = true := by
  rcases isFoldedLetter_cases h with rfl | rfl | h
  · decide +kernel
  · decide +kernel
  · exact (plain_spec (isPlainNameChar_of_isAlpha h)).2.2.1

theorem not_isBlank_of_isFoldedLetter {c : Char} (h : isFoldedLetter c = true) :
    isBlank c = false := by
  rcases isFoldedLetter_cases h with rfl | rfl | h
  · decide
  · decide
  · exact not_isBlank_of_plain (isPlainNameChar_of_isAlpha h)

/-- No class of characters that lies apart from the blanks holds one. -/
theorem not_isBlank_of_covers {intervals : List Interval}
    (apart : ∀ i ∈ intervals, ∀ blank ∈ blankIntervals, i.last < blank.first ∨ blank.last < i.first)
    {c : Char} (h : covers intervals c = true) : isBlank c = false := by
  obtain ⟨i, hi, hfirst, hlast⟩ := covers_eq_true_iff.1 h
  have hno : covers blankIntervals c = false := by
    refine Bool.eq_false_iff.2 fun hb => ?_
    obtain ⟨blank, hblank, hb1, hb2⟩ := covers_eq_true_iff.1 hb
    rcases apart i hi blank hblank with h | h <;> omega
  rw [isBlank, hno, Bool.or_false, beq_eq_false_iff_ne]
  rintro rfl
  exact absurd hno (by decide)

theorem not_isBlank_of_isWordChar {c : Char} (h : isWordChar c = true) : isBlank c = false := by
  by_cases hlt : c.toNat < 128
  · rw [isWordChar_of_lt hlt] at h
    exact not_isBlank_of_plain h
  · rw [isWordChar, if_neg hlt] at h
    exact not_isBlank_of_covers (by decide +kernel) h

theorem toNat_lt_of_isAsciiDigit {c : Char} (h : isAsciiDigit c = true) : c.toNat < 128 := by
  rw [isAsciiDigit, Bool.and_eq_true, decide_eq_true_eq, decide_eq_true_eq] at h
  exact Nat.lt_of_le_of_lt (show c.toNat ≤ '9'.toNat from h.2) (by decide)

theorem not_isBlank_of_isDigit {c : Char} (h : isDigit c = true) : isBlank c = false := by
  have ascii : ∀ n < 128, isAsciiDigit (Char.ofNat n) = true → isBlank (Char.ofNat n) = false := by
    decide
  rw [isDigit, Bool.or_eq_true] at h
  rcases h with h | h
  · exact ascii_induction (p := fun c => isAsciiDigit c = true → isBlank c = false) ascii
      (toNat_lt_of_isAsciiDigit h) h
  · exact not_isBlank_of_covers (by decide +kernel) h

/-- Whether a text is made of the characters of plain names. -/
def IsPlain (s : List Char) : Prop := ∀ c ∈ s, isPlainNameChar c = true

instance (s : List Char) : Decidable (IsPlain s) := List.decidableBAll _ s

theorem IsPlain.append {s t : List Char} (hs : IsPlain s) (ht : IsPlain t) : IsPlain (s ++ t) :=
  fun c hc => (List.mem_append.1 hc).elim (hs c) (ht c)

theorem IsPlain.cons {c : Char} {s : List Char} (hc : isPlainNameChar c = true) (hs : IsPlain s) :
    IsPlain (c :: s) :=
  fun d hd => (List.mem_cons.1 hd).elim (fun h => h ▸ hc) (hs d)

theorem IsPlain.byteLength_eq {s : List Char} (h : IsPlain s) : byteLength s = s.length := by
  induction s with
  | nil => rfl
  | cons c s ih =>
    rw [byteLength_cons, (plain_spec (h c List.mem_cons_self)).2.2.2,
      ih fun d hd => h d (List.mem_cons_of_mem _ hd), List.length_cons, Nat.add_comm]

/-! ## Cutting -/

/-- A plain text can be cut at every byte. -/
theorem truncateBytes?_eq_take {s : List Char} (h : IsPlain s) (n : ℕ) :
    truncateBytes? n s = some (s.take n) := by
  rw [truncateBytes?]
  by_cases hn : byteLength s ≤ n
  · rw [if_pos hn, List.take_of_length_le (h.byteLength_eq ▸ hn)]
  · rw [if_neg hn]
    rw [h.byteLength_eq] at hn
    refine takeBytes?_eq_some_iff.2 ⟨?_, s.drop n, (List.take_append_drop n s).symm⟩
    have hp : IsPlain (s.take n) := fun c hc => h c (List.mem_of_mem_take hc)
    rw [hp.byteLength_eq, List.length_take]
    omega

theorem cut_eq_take {s : List Char} (h : IsPlain s) (n : ℕ) : Naming.cut n s = s.take n := by
  rw [Naming.cut, truncateBytes?_eq_take h]
  rfl

theorem length_cut {s : List Char} (h : IsPlain s) (n : ℕ) :
    (Naming.cut n s).length = min n s.length := by
  rw [cut_eq_take h, List.length_take]

theorem IsPlain.cut {s : List Char} (h : IsPlain s) (n : ℕ) : IsPlain (Naming.cut n s) := by
  rw [cut_eq_take h]
  exact fun c hc => h c (List.mem_of_mem_take hc)

/-! ## Numbers -/

theorem isDigit_of_mem_toDigits {n : ℕ} {c : Char} (h : c ∈ Nat.toDigits 10 n) :
    c.isDigit = true :=
  Nat.isDigit_of_mem_toDigits (by decide) (by decide) h

theorem isAsciiDigit_of_isDigit {c : Char} (h : c.isDigit = true) : isAsciiDigit c = true := by
  rw [isAsciiDigit, Bool.and_eq_true, decide_eq_true_eq, decide_eq_true_eq]
  exact Char.isDigit_iff_toNat.1 h

theorem isPlain_toDigits (n : ℕ) : IsPlain (Nat.toDigits 10 n) := fun _ hc =>
  isPlainNameChar_of_isAlphanum (isAlphanum_of_isDigit (isDigit_of_mem_toDigits hc))

theorem mem_padded {width n : ℕ} {c : Char} (h : c ∈ padded width n) : c.isDigit = true := by
  rw [padded, List.mem_append] at h
  rcases h with h | h
  · rw [List.eq_of_mem_replicate h]
    decide
  · exact isDigit_of_mem_toDigits h

theorem length_padded (width n : ℕ) :
    (padded width n).length = max width (Nat.toDigits 10 n).length := by
  rw [padded, List.length_append, List.length_replicate]
  omega

theorem decimalFrom_eq (s : List Char) : decimalFrom 0 s = Nat.ofDigitChars 10 s 0 := by
  rw [decimalFrom, Nat.ofDigitChars_eq_foldl]
  refine congrArg (List.foldl · 0 s) (funext fun m => funext fun c => ?_)
  rw [digitValue, Nat.mul_comm]

theorem decimal?_eq_some_iff {s : List Char} {n : ℕ} :
    decimal? s = some n ↔ s ≠ [] ∧ (∀ c ∈ s, isAsciiDigit c = true) ∧
      Nat.ofDigitChars 10 s 0 = n := by
  rw [decimal?, decimalFrom_eq]
  cases s <;> simp

theorem decimal?_toDigits (n : ℕ) : decimal? (Nat.toDigits 10 n) = some n := by
  have hne : (Nat.toDigits 10 n).isEmpty = false := by
    simp [Nat.toDigits_ne_nil]
  have hall : (Nat.toDigits 10 n).all isAsciiDigit = true :=
    List.all_eq_true.2 fun c hc => isAsciiDigit_of_isDigit (isDigit_of_mem_toDigits hc)
  rw [decimal?, hne, hall, decimalFrom_eq, Nat.ofDigitChars_ten_toDigits]
  rfl

end Text

/-! ## Names made from a text -/

namespace Naming

theorem isAlphanum_of_mem_capitalize {w : List Char} (h : ∀ c ∈ w, c.isAlphanum = true) :
    ∀ c ∈ capitalize w, c.isAlphanum = true := by
  have key : ∀ n < 128, (Char.ofNat n).isAlphanum = true →
      (Char.ofNat n).toUpper.isAlphanum = true ∧ (Char.ofNat n).toLower.isAlphanum = true := by
    decide
  have either : ∀ c : Char, c.isAlphanum = true →
      c.toUpper.isAlphanum = true ∧ c.toLower.isAlphanum = true := fun c hc =>
    ascii_induction (p := fun c => c.isAlphanum = true →
      c.toUpper.isAlphanum = true ∧ c.toLower.isAlphanum = true) key (toNat_lt_of_isAlphanum hc) hc
  cases w with
  | nil => simp [capitalize]
  | cons d w =>
    intro c hc
    rw [capitalize, List.mem_append] at hc
    have hd := h d List.mem_cons_self
    rcases hc with hc | hc
    · rw [upperChar_of_lt (toNat_lt_of_isAlphanum hd), List.mem_singleton] at hc
      exact hc ▸ (either d hd).1
    · obtain ⟨e, he, hc⟩ := List.mem_flatMap.1 hc
      have he := h e (List.mem_cons_of_mem _ he)
      rw [lowerChar_of_lt (toNat_lt_of_isAlphanum he), List.mem_singleton] at hc
      exact hc ▸ (either e he).2

/-- The words of a title keep letters and digits only. -/
theorem isAlphanum_of_mem_plainWords {s w : List Char} (hw : w ∈ plainWords s) :
    ∀ c ∈ w, c.isAlphanum = true := by
  intro c hc
  obtain ⟨hm, hb⟩ := mem_of_mem_words hw hc
  have := (List.mem_filter.1 hm).2
  rw [hb, Bool.or_false] at this
  exact this

theorem isPlain_flatMap_capitalize {ws : List (List Char)} {s : List Char}
    (h : ∀ w ∈ ws, w ∈ plainWords s) : IsPlain (ws.flatMap capitalize) := by
  intro c hc
  obtain ⟨w, hw, hc⟩ := List.mem_flatMap.1 hc
  exact isPlainNameChar_of_isAlphanum
    (isAlphanum_of_mem_capitalize (isAlphanum_of_mem_plainWords (h w hw)) c hc)

theorem isPlain_pascalTitle (s : List Char) : IsPlain (pascalTitle s) :=
  isPlain_flatMap_capitalize fun _ hw => hw

theorem isPlain_pascalCase (s : List Char) (most : ℕ) : IsPlain (pascalCase s most) :=
  isPlain_flatMap_capitalize fun _ hw => List.mem_of_mem_take hw

/-- The name of a test is plain, whatever its title. -/
theorem isPlain_procedureName {id : UInt32} {title : List Char} :
    IsPlain (procedureName id title) := by
  have hp : IsPlain (padded 4 id.toNat) := fun c hc =>
    isPlainNameChar_of_isAlphanum (isAlphanum_of_isDigit (mem_padded hc))
  exact .append (.cons rfl hp) (.cons rfl ((isPlain_pascalTitle title).cut maxTitle))

/-- A number of 32 bits has at most ten digits, and the title is cut. -/
theorem length_procedureName_le_ninetyTwo (id : UInt32) (title : List Char) :
    (procedureName id title).length ≤ 92 := by
  have hdigits : (Nat.toDigits 10 id.toNat).length ≤ 10 := by
    rw [Nat.length_toDigits_le_iff (by decide) (by decide)]
    have := id.toNat_lt
    omega
  have hcut := length_cut (isPlain_pascalTitle title) maxTitle
  have hpad := length_padded 4 id.toNat
  unfold procedureName
  rw [List.length_append, List.length_cons, List.length_cons, hcut, hpad]
  have hmost : maxTitle = 80 := rfl
  omega

end Naming

end Acceptance
