import Mathlib.Data.List.Basic
import Acceptance.Json.Printer
import Acceptance.Json.Reader
import Acceptance.Proofs.Text.Plain

/-!
# Written JSON is read

A value can be written with any spaces between its tokens. Both layouts write it so, and the reader
gives back the value of every text that is written so: a literal closes at its own quotation mark,
since the marks inside it are escaped, and a number ends where no character comes that could belong
to it.

Main results:

* `readText_quoted`: a literal gives back its text.
* `readNumber_toDigits`: digits give back their number.
* `Writes.readValue_append`: a written value is read, whatever comes behind it.
* `writes_compactChars`, `writes_prettyChars`: what the layouts write.
* `read?_compact`, `read?_pretty`: a value that is written in either layout is read back.
-/

namespace Acceptance.Json

open Text

/-! ## Specification -/

/-- Values that a text can give back: numbers are natural, and nothing in them is broken. -/
inductive IsReadable : Json → Prop where
  | null : IsReadable null
  | bool (b : Bool) : IsReadable (bool b)
  | natural (n : ℕ) : IsReadable (natural n)
  | text (s : String) : IsReadable (text s)
  | list {items : List Json} (h : ∀ v ∈ items, IsReadable v) : IsReadable (list items)
  | object {members : List (String × Json)} (h : ∀ m ∈ members, IsReadable m.2) :
      IsReadable (object members)

/-- Whether a text holds spaces only. -/
def IsSpacing (s : List Char) : Prop := ∀ c ∈ s, isSpace c = true

instance (s : List Char) : Decidable (IsSpacing s) := List.decidableBAll _ s

mutual

/-- Whether a text writes a value, from its first character to its last one, with any spaces between
its tokens. -/
inductive Writes : Json → List Char → Prop where
  | null : Writes null ['n', 'u', 'l', 'l']
  | bool_true : Writes (bool true) ['t', 'r', 'u', 'e']
  | bool_false : Writes (bool false) ['f', 'a', 'l', 's', 'e']
  | natural (n : ℕ) : Writes (natural n) (Nat.toDigits 10 n)
  | text (s : String) : Writes (text s) (quoted s)
  | emptyList {gap : List Char} (hg : IsSpacing gap) : Writes (list []) ('[' :: (gap ++ [']']))
  | list {gap s : List Char} {items : List Json} (hg : IsSpacing gap) (h : WritesItems items s) :
      Writes (list items) ('[' :: (gap ++ s))
  | emptyObject {gap : List Char} (hg : IsSpacing gap) :
      Writes (object []) ('\x7b' :: (gap ++ ['\x7d']))
  | object {gap s : List Char} {members : List (String × Json)} (hg : IsSpacing gap)
      (h : WritesMembers members s) : Writes (object members) ('\x7b' :: (gap ++ s))

/-- Whether a text writes the items of a list and its closing bracket. -/
inductive WritesItems : List Json → List Char → Prop where
  | last {v : Json} {s gap : List Char} (h : Writes v s) (hg : IsSpacing gap) :
      WritesItems [v] (s ++ (gap ++ [']']))
  | cons {v : Json} {s gap behind t : List Char} {items : List Json} (h : Writes v s)
      (hg : IsSpacing gap) (hb : IsSpacing behind) (ht : WritesItems items t) :
      WritesItems (v :: items) (s ++ (gap ++ ',' :: (behind ++ t)))

/-- Whether a text writes the members of an object and its closing brace. -/
inductive WritesMembers : List (String × Json) → List Char → Prop where
  | last {name : String} {v : Json} {s colon before gap : List Char} (hc : IsSpacing colon)
      (hbefore : IsSpacing before) (h : Writes v s) (hg : IsSpacing gap) :
      WritesMembers [(name, v)]
        (quoted name ++ (colon ++ ':' :: (before ++ (s ++ (gap ++ ['\x7d'])))))
  | cons {name : String} {v : Json} {s colon before gap behind t : List Char}
      {members : List (String × Json)} (hc : IsSpacing colon) (hbefore : IsSpacing before)
      (h : Writes v s) (hg : IsSpacing gap) (hb : IsSpacing behind) (ht : WritesMembers members t) :
      WritesMembers ((name, v) :: members)
        (quoted name ++ (colon ++ ':' :: (before ++ (s ++ (gap ++ ',' :: (behind ++ t))))))

end

/-! ## Spaces -/

theorem isSpacing_nil : IsSpacing [] := nofun

theorem skipSpace_append {gap : List Char} (h : IsSpacing gap) (s : List Char) :
    skipSpace (gap ++ s) = skipSpace s :=
  List.dropWhile_append_of_pos h

theorem skipSpace_cons {c : Char} (h : isSpace c = false) (s : List Char) :
    skipSpace (c :: s) = c :: s :=
  List.dropWhile_cons_of_neg (by simp [h])

theorem skipSpace_gap_cons {gap : List Char} (hg : IsSpacing gap) {c : Char} (h : isSpace c = false)
    (s : List Char) : skipSpace (gap ++ c :: s) = c :: s := by
  rw [skipSpace_append hg, skipSpace_cons h]

/-! ## Literals -/

theorem hexValue?_hexDigit {n : ℕ} (h : n < 16) : hexValue? (hexDigit n) = some n := by
  have key : ∀ n < 16, hexValue? (hexDigit n) = some n := by decide
  exact key n h

theorem pieces?_escape {e c : Char} (he : e ≠ 'u') (h : simpleEscape? e = some c) (s : List Char) :
    pieces? ('\\' :: e :: s) = (pieces? s).map fun r => (.char c :: r.1, r.2) := by
  rw [pieces?, h]
  · cases pieces? s <;> rfl
  · rintro a b c d rest ⟨⟩ -
    exact he rfl

theorem pieces?_unit {n : ℕ} (h : n < 32) (s : List Char) :
    pieces? ('\\' :: 'u' :: '0' :: '0' :: hexDigit (n / 16) :: hexDigit (n % 16) :: s) =
      (pieces? s).map fun r => (.unit n :: r.1, r.2) := by
  have hunit : unit? '0' '0' (hexDigit (n / 16)) (hexDigit (n % 16)) = some n := by
    have hhigh := hexValue?_hexDigit (n := n / 16) (by omega)
    have hlow := hexValue?_hexDigit (n := n % 16) (by omega)
    rw [unit?, hhigh, hlow]
    show some (((0 * 16 + 0) * 16 + n / 16) * 16 + n % 16) = some n
    exact congrArg some (by omega)
  rw [pieces?, hunit]
  cases pieces? s <;> rfl

theorem pieces?_plain {c : Char} (hb : c ≠ '\\') (hq : c ≠ '"') (hc : 32 ≤ c.toNat) (s : List Char) :
    pieces? (c :: s) = (pieces? s).map fun r => (.char c :: r.1, r.2) := by
  have hplain : (decide (c.toNat < 32) || c == '\\') = false := by simp [hb, hc]
  rw [pieces?, hplain]
  · cases pieces? s <;> rfl
  · exact hq
  · exact fun _ _ _ _ _ h _ => hb h
  · exact fun _ _ h _ => hb h

theorem decode?_unit {n : ℕ} (h : n < 32) (ps : List Piece) :
    decode? (.unit n :: ps) = (decode? ps).map (Char.ofNat n :: ·) := by
  have hhigh : isHighSurrogate n = false := by simp [isHighSurrogate]; omega
  have hlow : isLowSurrogate n = false := by simp [isLowSurrogate]; omega
  rw [decode?.eq_def]
  simp only [hhigh, hlow]
  rfl

/-- A character of a literal is one piece, and the piece stands for the character. -/
theorem exists_piece (c : Char) : ∃ p : Piece,
    (∀ s, pieces? (escapeChar c ++ s) = (pieces? s).map fun r => (p :: r.1, r.2)) ∧
      ∀ ps, decode? (p :: ps) = (decode? ps).map (c :: ·) := by
  have escaped {e : Char} (he : e ≠ 'u') (h : simpleEscape? e = some c) : ∃ p : Piece,
      (∀ s, pieces? (['\\', e] ++ s) = (pieces? s).map fun r => (p :: r.1, r.2)) ∧
        ∀ ps, decode? (p :: ps) = (decode? ps).map (c :: ·) :=
    ⟨.char c, pieces?_escape he h, fun _ => rfl⟩
  unfold escapeChar
  split_ifs with hq hb hn hr ht h8 h12 hlow
  · exact escaped (by decide) (by rw [beq_iff_eq.1 hq]; rfl)
  · exact escaped (by decide) (by rw [beq_iff_eq.1 hb]; rfl)
  · exact escaped (by decide) (by rw [beq_iff_eq.1 hn]; rfl)
  · exact escaped (by decide) (by rw [beq_iff_eq.1 hr]; rfl)
  · exact escaped (by decide) (by rw [beq_iff_eq.1 ht]; rfl)
  · exact escaped (by decide) (by rw [beq_iff_eq.1 h8]; rfl)
  · exact escaped (by decide) (by rw [beq_iff_eq.1 h12]; rfl)
  · refine ⟨.unit c.toNat, pieces?_unit hlow, fun ps => ?_⟩
    rw [decode?_unit hlow, Char.ofNat_toNat]
  · exact ⟨.char c, pieces?_plain (by simpa using hb) (by simpa using hq) (Nat.not_lt.1 hlow),
      fun _ => rfl⟩

/-- A literal ends at its own quotation mark. -/
theorem exists_pieces (s rest : List Char) : ∃ ps,
    pieces? (s.flatMap escapeChar ++ '"' :: rest) = some (ps, rest) ∧ decode? ps = some s := by
  induction s with
  | nil => exact ⟨[], rfl, rfl⟩
  | cons c s ih =>
    obtain ⟨p, hp, hc⟩ := exists_piece c
    obtain ⟨ps, hps, hs⟩ := ih
    refine ⟨p :: ps, ?_, ?_⟩
    · rw [List.flatMap_cons, List.append_assoc, hp, hps]
      rfl
    · rw [hc, hs]
      rfl

theorem readText_quoted (s : String) (rest : List Char) :
    readText (s.toList.flatMap escapeChar ++ '"' :: rest) = some (text s, rest) := by
  obtain ⟨ps, hps, hs⟩ := exists_pieces s.toList rest
  rw [readText, hps]
  simp only [hs, String.ofList_toList]

/-! ## Numbers -/

/-- Whether a character can belong to a number behind its first digit. -/
def goesOn (c : Char) : Bool := isDecimal c || c == '.' || c == 'e' || c == 'E'

/-- Whether a number ends where the text starts. -/
def EndsNumber (s : List Char) : Prop := ∀ c ∈ s.head?, goesOn c = false

theorem EndsNumber.spec {s : List Char} (h : EndsNumber s) {c : Char} (hc : c ∈ s.head?) :
    isDecimal c = false ∧ c ≠ '.' ∧ (c == 'e' || c == 'E') = false := by
  have := h c hc
  simp only [goesOn, Bool.or_eq_false_iff, beq_eq_false_iff_ne] at this
  exact ⟨this.1.1.1, this.1.1.2, by simp [this.1.2, this.2]⟩

theorem goesOn_of_isSpace {c : Char} (h : isSpace c = true) : goesOn c = false := by
  simp only [isSpace, Bool.or_eq_true, beq_iff_eq] at h
  rcases h with ((rfl | rfl) | rfl) | rfl <;> decide

theorem endsNumber_gap {gap : List Char} (hg : IsSpacing gap) : EndsNumber gap := fun c hc =>
  goesOn_of_isSpace (hg c (List.mem_of_mem_head? hc))

theorem endsNumber_append {gap : List Char} (hg : IsSpacing gap) {c : Char} (hc : goesOn c = false)
    (s : List Char) : EndsNumber (gap ++ c :: s) := by
  cases gap with
  | nil => exact fun d hd => Option.some.inj hd ▸ hc
  | cons g gap => exact fun d hd => endsNumber_gap hg d hd

/-- Only zero starts with a zero. -/
theorem eq_zero_of_head?_toDigits {n : ℕ} (h : (Nat.toDigits 10 n).head? = some '0') : n = 0 := by
  induction n using Nat.strong_induction_on with
  | _ n ih =>
    by_cases hn : n < 10
    · have key : ∀ n < 10, n.digitChar = '0' → n = 0 := by decide
      rw [Nat.toDigits_of_lt_base hn] at h
      exact key n hn (Option.some.inj h)
    · rw [Nat.toDigits_of_base_le (by decide) (Nat.not_lt.1 hn),
        List.head?_append_of_ne_nil _ Nat.toDigits_ne_nil] at h
      have := ih (n / 10) (by omega) h
      omega

theorem isDecimal_of_mem_toDigits {n : ℕ} {c : Char} (h : c ∈ Nat.toDigits 10 n) :
    isDecimal c = true :=
  isAsciiDigit_of_isDigit (isDigit_of_mem_toDigits h)

theorem exists_toDigits_eq (n : ℕ) : ∃ d ds, Nat.toDigits 10 n = d :: ds ∧ isDecimal d = true := by
  obtain ⟨d, ds, hd⟩ := List.exists_cons_of_ne_nil (Nat.toDigits_ne_nil (n := n) (b := 10))
  exact ⟨d, ds, hd, isDecimal_of_mem_toDigits (hd ▸ List.mem_cons_self)⟩

theorem digits?_toDigits (n : ℕ) {rest : List Char} (h : EndsNumber rest) :
    digits? (Nat.toDigits 10 n ++ rest) = some (Nat.toDigits 10 n, rest) := by
  have hdigits : ∀ c ∈ Nat.toDigits 10 n, isDecimal c = true := fun _ => isDecimal_of_mem_toDigits
  have htake : rest.takeWhile isDecimal = [] := by
    cases rest with
    | nil => rfl
    | cons c rest => exact List.takeWhile_cons_of_neg (by simp [(h.spec rfl).1])
  have hdrop : rest.dropWhile isDecimal = rest := by
    cases rest with
    | nil => rfl
    | cons c rest => exact List.dropWhile_cons_of_neg (by simp [(h.spec rfl).1])
  rw [digits?, List.takeWhile_append_of_pos hdigits, List.dropWhile_append_of_pos hdigits, htake,
    hdrop, List.append_nil]
  obtain ⟨d, ds, hd, -⟩ := exists_toDigits_eq n
  rw [hd]

theorem whole?_toDigits (n : ℕ) {rest : List Char} (h : EndsNumber rest) :
    whole? (Nat.toDigits 10 n ++ rest) = some (Nat.toDigits 10 n, rest) := by
  rw [whole?, digits?_toDigits n h]
  split
  · next heq => exact heq ▸ rfl
  · next ds behind hne heq =>
    have hd : Nat.toDigits 10 n = '0' :: ds := (Prod.mk.inj (Option.some.inj heq)).1
    obtain rfl := eq_zero_of_head?_toDigits (n := n) (by rw [hd]; rfl)
    exact absurd (List.cons.inj hd).2.symm hne
  · rfl

theorem fraction?_eq {rest : List Char} (h : EndsNumber rest) : fraction? rest = some ([], rest) := by
  unfold fraction?
  split
  · exact absurd rfl (h.spec rfl).2.1
  · rfl

theorem exponent?_eq {rest : List Char} (h : EndsNumber rest) : exponent? rest = some ([], rest) := by
  cases rest with
  | nil => rfl
  | cons c rest =>
    rw [exponent?.eq_def]
    simp only [(h.spec rfl).2.2]
    rfl

theorem toDigits_append_ne (n : ℕ) (rest body : List Char) :
    Nat.toDigits 10 n ++ rest ≠ '-' :: body := by
  obtain ⟨d, ds, hd, hdigit⟩ := exists_toDigits_eq n
  rw [hd]
  intro h
  rw [(List.cons.inj h).1] at hdigit
  exact absurd hdigit (by decide)

theorem readNumber_toDigits (n : ℕ) {rest : List Char} (h : EndsNumber rest) :
    readNumber (Nat.toDigits 10 n ++ rest) = some (natural n, rest) := by
  have hvalue : naturalOf (Nat.toDigits 10 n) = n :=
    (decimalFrom_eq _).trans Nat.ofDigitChars_ten_toDigits
  unfold readNumber
  split
  next sign body hsign =>
  split at hsign
  · next heq => exact absurd heq (toDigits_append_ne n rest _)
  · obtain ⟨rfl, rfl⟩ := Prod.mk.inj hsign
    simp only [whole?_toDigits n h, Option.bind_eq_bind, Option.bind_some, fraction?_eq h,
      exponent?_eq h, hvalue]
    rfl

/-! ## Reading a value -/

/-- Whether the character can start a value. -/
def startsValue (c : Char) : Bool := !isSpace c && c != ']'

/-- A digit is one of ten characters. -/
theorem mem_of_isDecimal {c : Char} (h : isDecimal c = true) :
    c ∈ ['0', '1', '2', '3', '4', '5', '6', '7', '8', '9'] := by
  have key : ∀ n < 128, isDecimal (Char.ofNat n) = true →
      Char.ofNat n ∈ ['0', '1', '2', '3', '4', '5', '6', '7', '8', '9'] := by decide
  exact ascii_induction (p := fun c => isDecimal c = true →
    c ∈ ['0', '1', '2', '3', '4', '5', '6', '7', '8', '9']) key (toNat_lt_of_isAsciiDigit h) h

theorem Writes.exists_start {v : Json} {s : List Char} (h : Writes v s) :
    ∃ c t, s = c :: t ∧ startsValue c = true := by
  cases h with
  | natural n =>
    have digits : ['0', '1', '2', '3', '4', '5', '6', '7', '8', '9'].all startsValue = true := by
      decide
    obtain ⟨d, ds, hd, hdigit⟩ := exists_toDigits_eq n
    exact ⟨d, ds, hd, List.all_eq_true.1 digits d (mem_of_isDecimal hdigit)⟩
  | _ => exact ⟨_, _, rfl, by decide⟩

theorem WritesItems.exists_start {items : List Json} {s : List Char} (h : WritesItems items s) :
    ∃ c t, s = c :: t ∧ startsValue c = true := by
  cases h with
  | last h _ =>
    obtain ⟨c, t, rfl, hc⟩ := h.exists_start
    exact ⟨c, _, rfl, hc⟩
  | cons h _ _ _ =>
    obtain ⟨c, t, rfl, hc⟩ := h.exists_start
    exact ⟨c, _, rfl, hc⟩

theorem WritesMembers.exists_start {members : List (String × Json)} {s : List Char}
    (h : WritesMembers members s) : ∃ t, s = '"' :: t := by
  cases h <;> exact ⟨_, rfl⟩

section Reader

variable {fuel : ℕ} {gap : List Char} (hg : IsSpacing gap)

include hg

theorem readValue_gap (s : List Char) : readValue fuel (gap ++ s) = readValue fuel s := by
  cases fuel with
  | zero => rfl
  | succ fuel => rw [readValue, readValue, skipSpace_append hg]

theorem readItems_gap (s : List Char) : readItems fuel (gap ++ s) = readItems fuel s := by
  cases fuel with
  | zero => rfl
  | succ fuel => rw [readItems, readItems, readValue_gap hg]

theorem readMembers_gap (s : List Char) : readMembers fuel (gap ++ s) = readMembers fuel s := by
  cases fuel with
  | zero => rfl
  | succ fuel => rw [readMembers, readMembers, skipSpace_append hg]

theorem readValue_emptyList (rest : List Char) :
    readValue (fuel + 1) ('[' :: (gap ++ ']' :: rest)) = some (list [], rest) := by
  rw [readValue, skipSpace_cons rfl]
  simp only [skipSpace_gap_cons hg (c := ']') rfl]

theorem readValue_list {c : Char} (hc : startsValue c = true) (s : List Char) :
    readValue (fuel + 1) ('[' :: (gap ++ c :: s)) =
      (readItems fuel (c :: s)).map fun r => (list r.1, r.2) := by
  simp only [startsValue, Bool.and_eq_true, Bool.not_eq_true', bne_iff_ne] at hc
  rw [readValue, skipSpace_cons rfl]
  simp only [skipSpace_gap_cons hg hc.1]
  split
  · next heq => exact absurd (List.cons.inj heq).1 hc.2
  · rfl

theorem readValue_emptyObject (rest : List Char) :
    readValue (fuel + 1) ('\x7b' :: (gap ++ '\x7d' :: rest)) = some (object [], rest) := by
  rw [readValue, skipSpace_cons rfl]
  simp only [skipSpace_gap_cons hg (c := '\x7d') rfl]

theorem readValue_object (s : List Char) :
    readValue (fuel + 1) ('\x7b' :: (gap ++ '"' :: s)) =
      (readMembers fuel ('"' :: s)).map fun r => (ofMembers r.1, r.2) := by
  rw [readValue, skipSpace_cons rfl]
  simp only [skipSpace_gap_cons hg (c := '"') rfl]
  rfl

end Reader

theorem quoted_append (s : String) (rest : List Char) :
    quoted s ++ rest = '"' :: (s.toList.flatMap escapeChar ++ '"' :: rest) := by
  simp [quoted]

theorem readValue_quoted (fuel : ℕ) (s : String) (rest : List Char) :
    readValue (fuel + 1) (quoted s ++ rest) = some (text s, rest) := by
  rw [quoted_append]
  exact readText_quoted s rest

theorem readValue_toDigits (fuel n : ℕ) {rest : List Char} (h : EndsNumber rest) :
    readValue (fuel + 1) (Nat.toDigits 10 n ++ rest) = some (natural n, rest) := by
  obtain ⟨d, ds, hd, hdigit⟩ := exists_toDigits_eq n
  have hstart : ∀ s, readValue (fuel + 1) (d :: s) = readNumber (d :: s) := by
    have hm := mem_of_isDecimal hdigit
    simp only [List.mem_cons, List.not_mem_nil, or_false] at hm
    rcases hm with rfl | rfl | rfl | rfl | rfl | rfl | rfl | rfl | rfl | rfl <;> exact fun _ => rfl
  have hnumber := readNumber_toDigits n h
  rw [hd, List.cons_append] at hnumber ⊢
  rw [hstart, hnumber]

section Parts

variable {fuel : ℕ} {v : Json} {s gap rest : List Char} (hg : IsSpacing gap)

include hg

/-- Behind the last item stands a bracket. -/
theorem readItems_last (h : readValue fuel s = some (v, gap ++ ']' :: rest)) :
    readItems (fuel + 1) s = some ([v], rest) := by
  rw [readItems, h]
  simp only [skipSpace_gap_cons hg (c := ']') rfl]

/-- Behind any other item stands a comma. -/
theorem readItems_comma (h : readValue fuel s = some (v, gap ++ ',' :: rest)) :
    readItems (fuel + 1) s = (readItems fuel rest).map fun r => (v :: r.1, r.2) := by
  rw [readItems, h]
  simp only [skipSpace_gap_cons hg (c := ',') rfl]

variable {colon before : List Char} (hc : IsSpacing colon) (hb : IsSpacing before) (name : String)

include hc hb

/-- Behind the last member stands a brace. -/
theorem readMembers_last (h : readValue fuel s = some (v, gap ++ '\x7d' :: rest)) :
    readMembers (fuel + 1) (quoted name ++ (colon ++ ':' :: (before ++ s))) =
      some ([(text name, v)], rest) := by
  rw [quoted_append, readMembers, skipSpace_cons rfl]
  simp only [readText_quoted, skipSpace_gap_cons hc (c := ':') rfl, readValue_gap hb, h,
    skipSpace_gap_cons hg (c := '\x7d') rfl]

/-- Behind any other member stands a comma. -/
theorem readMembers_comma (h : readValue fuel s = some (v, gap ++ ',' :: rest)) :
    readMembers (fuel + 1) (quoted name ++ (colon ++ ':' :: (before ++ s))) =
      (readMembers fuel rest).map fun r => ((text name, v) :: r.1, r.2) := by
  rw [quoted_append, readMembers, skipSpace_cons rfl]
  simp only [readText_quoted, skipSpace_gap_cons hc (c := ':') rfl, readValue_gap hb, h,
    skipSpace_gap_cons hg (c := ',') rfl]

end Parts

theorem mapM_map_of_forall {α β : Type} {f : α → β} {g : β → Option α} {l : List α}
    (h : ∀ a ∈ l, g (f a) = some a) : (l.map f).mapM g = some l := by
  induction l with
  | nil => rfl
  | cons a l ih =>
    rw [List.map_cons, List.mapM_cons, h a List.mem_cons_self,
      ih fun b hb => h b (List.mem_cons_of_mem a hb)]
    rfl

theorem ofMembers_texts (members : List (String × Json)) :
    ofMembers (members.map fun m => (text m.1, m.2)) = object members := by
  simp only [ofMembers]
  rw [mapM_map_of_forall (f := fun m : String × Json => (text m.1, m.2)) fun _ _ => rfl]

mutual

/-- A written value is read, whatever comes behind it that does not belong to it. -/
theorem Writes.readValue_append {v : Json} {s : List Char} (h : Writes v s) {fuel : ℕ}
    {rest : List Char} (hf : s.length ≤ fuel) (hr : EndsNumber rest) :
    readValue fuel (s ++ rest) = some (v, rest) := by
  obtain ⟨c, t, hs, -⟩ := h.exists_start
  obtain ⟨fuel, rfl⟩ : ∃ f, fuel = f + 1 := ⟨fuel - 1, by rw [hs, List.length_cons] at hf; omega⟩
  match h with
  | .null => rfl
  | .bool_true => rfl
  | .bool_false => rfl
  | .natural n => exact readValue_toDigits fuel n hr
  | .text s => exact readValue_quoted fuel s rest
  | .emptyList hg =>
    rw [List.cons_append, List.append_assoc]
    exact readValue_emptyList hg rest
  | .list hg hi =>
    obtain ⟨d, u, rfl, hd⟩ := hi.exists_start
    simp only [List.length_cons, List.length_append] at hf
    have hread : readItems fuel (d :: u ++ rest) = _ := hi.readItems_append (by
      rw [List.length_cons]
      omega)
    rw [List.cons_append] at hread
    rw [List.cons_append, List.append_assoc, List.cons_append, readValue_list hg hd, hread]
    rfl
  | .emptyObject hg =>
    rw [List.cons_append, List.append_assoc]
    exact readValue_emptyObject hg rest
  | .object hg hm =>
    obtain ⟨u, rfl⟩ := hm.exists_start
    simp only [List.length_cons, List.length_append] at hf
    have hread : readMembers fuel ('"' :: u ++ rest) = _ := hm.readMembers_append (by
      rw [List.length_cons]
      omega)
    rw [List.cons_append] at hread
    rw [List.cons_append, List.append_assoc, List.cons_append, readValue_object hg, hread]
    exact congrArg (fun v => some (v, rest)) (ofMembers_texts _)

theorem WritesItems.readItems_append {items : List Json} {s : List Char} (h : WritesItems items s)
    {fuel : ℕ} {rest : List Char} (hf : s.length ≤ fuel) :
    readItems fuel (s ++ rest) = some (items, rest) := by
  obtain ⟨c, t, hs, -⟩ := h.exists_start
  obtain ⟨fuel, rfl⟩ : ∃ f, fuel = f + 1 := ⟨fuel - 1, by rw [hs, List.length_cons] at hf; omega⟩
  match h with
  | .last hv hg =>
    simp only [List.append_assoc, List.singleton_append]
    simp only [List.length_append, List.length_cons] at hf
    exact readItems_last hg (hv.readValue_append (by omega) (endsNumber_append hg rfl _))
  | .cons hv hg hb ht =>
    simp only [List.append_assoc, List.cons_append]
    simp only [List.length_append, List.length_cons] at hf
    rw [readItems_comma hg (hv.readValue_append (by omega) (endsNumber_append hg rfl _)),
      readItems_gap hb, ht.readItems_append (by omega)]
    rfl

theorem WritesMembers.readMembers_append {members : List (String × Json)} {s : List Char}
    (h : WritesMembers members s) {fuel : ℕ} {rest : List Char} (hf : s.length ≤ fuel) :
    readMembers fuel (s ++ rest) =
      some (members.map fun m => (text m.1, m.2), rest) := by
  obtain ⟨t, hs⟩ := h.exists_start
  obtain ⟨fuel, rfl⟩ : ∃ f, fuel = f + 1 := ⟨fuel - 1, by rw [hs, List.length_cons] at hf; omega⟩
  match h with
  | .last hc hb hv hg =>
    simp only [List.append_assoc, List.cons_append, List.nil_append]
    simp only [List.length_append, List.length_cons] at hf
    exact readMembers_last hg hc hb _ (hv.readValue_append (by omega) (endsNumber_append hg rfl _))
  | .cons hc hb hv hg hbehind ht =>
    simp only [List.append_assoc, List.cons_append]
    simp only [List.length_append, List.length_cons] at hf
    rw [readMembers_comma hg hc hb _ (hv.readValue_append (by omega) (endsNumber_append hg rfl _)),
      readMembers_gap hbehind, ht.readMembers_append (by omega)]
    rfl

end

/-- A document may have spaces behind its value. -/
theorem Writes.readChars?_append {v : Json} {s gap : List Char} (h : Writes v s) (hg : IsSpacing gap) :
    readChars? (s ++ gap) = some v := by
  have hfuel : s.length ≤ 2 * (s ++ gap).length + 1 := by
    rw [List.length_append]
    omega
  have hspace : skipSpace gap = [] := List.dropWhile_eq_nil_iff.2 hg
  rw [readChars?, h.readValue_append hfuel (endsNumber_gap hg)]
  simp only [hspace, List.isEmpty_nil, if_true]

/-! ## Layouts -/

theorem writesItems_compactItems {items : List Json} (hne : items ≠ [])
    (h : ∀ v ∈ items, Writes v (compactChars v)) : WritesItems items (compactItems items) := by
  induction items with
  | nil => exact absurd rfl hne
  | cons v more ih =>
    have hv := h v List.mem_cons_self
    cases more with
    | nil => exact .last hv isSpacing_nil
    | cons w more =>
      exact .cons hv isSpacing_nil isSpacing_nil
        (ih (List.cons_ne_nil _ _) fun u hu => h u (List.mem_cons_of_mem v hu))

theorem writesMembers_compactMembers {members : List (String × Json)} (hne : members ≠ [])
    (h : ∀ m ∈ members, Writes m.2 (compactChars m.2)) :
    WritesMembers members (compactMembers members) := by
  induction members with
  | nil => exact absurd rfl hne
  | cons m more ih =>
    have hm := h m List.mem_cons_self
    cases more with
    | nil =>
      rw [compactMembers, List.append_assoc]
      exact .last isSpacing_nil isSpacing_nil hm isSpacing_nil
    | cons w more =>
      rw [compactMembers, List.append_assoc]
      · exact .cons isSpacing_nil isSpacing_nil hm isSpacing_nil isSpacing_nil
          (ih (List.cons_ne_nil w more) fun u hu => h u (List.mem_cons_of_mem m hu))
      · exact List.cons_ne_nil w more

theorem writes_compactChars {v : Json} (h : IsReadable v) : Writes v (compactChars v) := by
  induction h with
  | null => exact .null
  | bool b => cases b with
    | true => exact .bool_true
    | false => exact .bool_false
  | natural n => exact .natural n
  | text s => exact .text s
  | @list items _ ih =>
    cases items with
    | nil => exact .emptyList isSpacing_nil
    | cons v more => exact .list isSpacing_nil (writesItems_compactItems (List.cons_ne_nil _ _) ih)
  | @object members _ ih =>
    cases members with
    | nil => exact .emptyObject isSpacing_nil
    | cons m more => exact .object isSpacing_nil (writesMembers_compactMembers (List.cons_ne_nil _ _) ih)

theorem isSpacing_newLine (level : ℕ) : IsSpacing (newLine level) := by
  intro c hc
  rcases List.mem_cons.1 hc with rfl | hc
  · rfl
  · rw [List.eq_of_mem_replicate hc]
    rfl

theorem exists_writesItems_prettyItems (level : ℕ) {items : List Json} (hne : items ≠ [])
    (h : ∀ v ∈ items, Writes v (prettyChars (level + 1) v)) :
    ∃ s, prettyItems level items = newLine (level + 1) ++ s ∧ WritesItems items s := by
  induction items with
  | nil => exact absurd rfl hne
  | cons v more ih =>
    have hv := h v List.mem_cons_self
    cases more with
    | nil =>
      refine ⟨_, ?_, .last hv (isSpacing_newLine level)⟩
      simp [prettyItems]
    | cons w more =>
      obtain ⟨s, hs, hw⟩ := ih (List.cons_ne_nil _ _) fun u hu => h u (List.mem_cons_of_mem v hu)
      refine ⟨_, ?_, .cons hv isSpacing_nil (isSpacing_newLine (level + 1)) hw⟩
      simp [prettyItems, hs]

theorem exists_writesMembers_prettyMembers (level : ℕ) {members : List (String × Json)}
    (hne : members ≠ []) (h : ∀ m ∈ members, Writes m.2 (prettyChars (level + 1) m.2)) :
    ∃ s, prettyMembers level members = newLine (level + 1) ++ s ∧ WritesMembers members s := by
  have space : IsSpacing [' '] := by decide
  induction members with
  | nil => exact absurd rfl hne
  | cons m more ih =>
    have hm := h m List.mem_cons_self
    cases more with
    | nil =>
      refine ⟨_, ?_, .last isSpacing_nil space hm (isSpacing_newLine level)⟩
      simp [prettyMembers]
    | cons w more =>
      obtain ⟨s, hs, hw⟩ := ih (List.cons_ne_nil _ _) fun u hu => h u (List.mem_cons_of_mem m hu)
      refine ⟨_, ?_, .cons isSpacing_nil space hm isSpacing_nil (isSpacing_newLine (level + 1)) hw⟩
      simp [prettyMembers, hs]

theorem writes_prettyChars {v : Json} (h : IsReadable v) (level : ℕ) :
    Writes v (prettyChars level v) := by
  induction h generalizing level with
  | null => exact .null
  | bool b => cases b with
    | true => exact .bool_true
    | false => exact .bool_false
  | natural n => exact .natural n
  | text s => exact .text s
  | @list items _ ih =>
    cases items with
    | nil => exact .emptyList isSpacing_nil
    | cons v more =>
      obtain ⟨s, hs, hw⟩ := exists_writesItems_prettyItems level (List.cons_ne_nil v more)
        fun u hu => ih u hu (level + 1)
      rw [prettyChars, hs]
      exact .list (isSpacing_newLine (level + 1)) hw
  | @object members _ ih =>
    cases members with
    | nil => exact .emptyObject isSpacing_nil
    | cons m more =>
      obtain ⟨s, hs, hw⟩ := exists_writesMembers_prettyMembers level (List.cons_ne_nil m more)
        fun u hu => ih u hu (level + 1)
      rw [prettyChars, hs]
      exact .object (isSpacing_newLine (level + 1)) hw

/-! ## Reading what is written -/

theorem read?_compact {v : Json} (h : IsReadable v) : read? v.compact = some v := by
  have hread := (writes_compactChars h).readChars?_append isSpacing_nil
  rwa [read?, compact, String.toList_ofList, ← List.append_nil v.compactChars]

theorem read?_pretty {v : Json} (h : IsReadable v) : read? v.pretty = some v := by
  have hread := (writes_prettyChars h 0).readChars?_append isSpacing_nil
  rwa [read?, pretty, String.toList_ofList, ← List.append_nil (v.prettyChars 0)]

end Acceptance.Json
