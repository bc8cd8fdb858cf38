import Mathlib.Data.List.TakeWhile
import Acceptance.Proofs.Plan.Block
import Acceptance.Proofs.Text.Plain

/-!
# What a line of a plan says

Most lines say nothing: a line that starts with neither a hash sign nor a rule opens and closes no
block, and a line without stars has no label. The number of a scenario is read as it is written.

Main results:

* `isBodyLine_cons`, `isBodyLine_of_allBlank`: lines that stay in their block.
* `step?_eq_none`, `priority?_eq_none`, `metadata?_eq_none`: lines without a label.
* `stepHere?_eq_some`: a place with one label.
* `scenarioNumber?_toDigits`: the number in a heading.
-/

namespace Acceptance

open Text Markup

/-! ## Lines of a body -/

/-- A line that starts with neither a blank nor a hash sign and holds a character besides the first
one and blanks. -/
theorem isBodyLine_cons {c d : Char} {s : List Char} (hc : isBlank c = false) (hhash : c ≠ '#')
    (hd : d ∈ s) (hdc : d ≠ c) (hblank : isBlank d = false) : IsBodyLine (c :: s) where
  no_heading := by
    refine hashes?_eq_none ?_
    rw [skipBlanks_cons hc, List.head?_cons]
    simpa using hhash
  no_break := by
    have hspace : (c == ' ') = false := beq_eq_false_iff_ne.2 (by rintro rfl; cases hc)
    have hrow : ((c :: s).all fun e => e == c || e == ' ' || e == '\t') = false := by
      refine List.all_eq_false.2 ⟨d, List.mem_cons_of_mem c hd, ?_⟩
      have hd1 : d ≠ ' ' := by rintro rfl; cases hblank
      have hd2 : d ≠ '\t' := by rintro rfl; cases hblank
      simp [hdc, hd1, hd2]
    rw [isThematicBreak, List.dropWhile_cons, hspace]
    show (_ && isRule (c :: s)) = false
    rw [isRule, hrow, Bool.and_false, Bool.and_false]

theorem isBodyLine_of_allBlank {line : List Char} (h : allBlank line = true) : IsBodyLine line where
  no_heading := by
    have hskip : skipBlanks line = [] :=
      List.dropWhile_eq_nil_iff.2 fun c hc => List.all_eq_true.1 h c hc
    exact hashes?_eq_none (by rw [hskip]; exact nofun)
  no_break := by
    cases hs : line.dropWhile (· == ' ') with
    | nil => rw [isThematicBreak, hs, isRule, Bool.and_false]
    | cons c s =>
      have hc : isBlank c = true :=
        List.all_eq_true.1 h c ((List.dropWhile_sublist _).mem (hs ▸ List.mem_cons_self))
      have hmark : (c == '-' || c == '*' || c == '_') = false := by
        rw [Bool.or_eq_false_iff, Bool.or_eq_false_iff]
        refine ⟨⟨?_, ?_⟩, ?_⟩ <;> refine beq_eq_false_iff_ne.2 ?_ <;> rintro rfl <;> cases hc
      rw [isThematicBreak, hs, isRule, hmark, Bool.false_and, Bool.false_and, Bool.and_false]

/-! ## Labels -/

theorem boldLabel?_eq_none {word? : List Char → Option (List Char)} {s : List Char}
    (h : afterStars? s = none) : boldLabel? word? s = none := by
  rw [boldLabel?, h]
  rfl

theorem skipColon_of_head? {s : List Char} (h : s.head? ≠ some ':') : skipColon s = s := by
  unfold skipColon
  split
  · exact absurd rfl h
  · rfl

theorem afterStars?_eq_none {s : List Char} (h : '*' ∉ s) : afterStars? s = none := by
  unfold afterStars?
  split
  · exact absurd List.mem_cons_self h
  · rfl

/-- Every label has stars. -/
theorem firstMatch?_eq_none_of_not_mem {α : Type} {find? : List Char → Option α}
    (hfind : ∀ t, afterStars? t = none → find? t = none) {line : List Char} (h : '*' ∉ line) :
    firstMatch? find? line = none :=
  firstMatch?_eq_none_iff.2 fun t ht => hfind t (afterStars?_eq_none fun hm => h (ht.mem hm))

theorem step?_eq_none {line : List Char} (h : '*' ∉ line) : step? line = none := by
  refine firstMatch?_eq_none_of_not_mem (fun t ht => ?_) h
  refine List.findSome?_eq_none_iff.2 fun label _ => ?_
  rw [boldLabel?_eq_none ht]

theorem priority?_eq_none {line : List Char} (h : '*' ∉ line) : priority? line = none := by
  refine firstMatch?_eq_none_of_not_mem (fun t ht => ?_) h
  rw [priorityHere?, boldLabel?_eq_none ht]
  rfl

theorem metadata?_eq_none {words : List (List Char)} {line : List Char} (h : '*' ∉ line) :
    metadata? words line = none := by
  refine firstMatch?_eq_none_of_not_mem (fun t ht => ?_) h
  rw [metadataHere?, boldLabel?_eq_none ht]
  rfl

/-- The label of a step, where no other one stands. -/
theorem stepHere?_eq_some {s rest : List Char} {label : Label}
    (h : boldLabel? (keyword? label.word) s = some rest)
    (hother : ∀ l, l ≠ label → boldLabel? (keyword? l.word) s = none)
    (hfeed : '\n' ∉ skipMark rest) : stepHere? s = some (label, trim (skipMark rest)) := by
  cases label <;> simp [stepHere?, Label.all, h, hother, hfeed]

/-! ## Numbers -/

theorem foldLetter_ne_of_isDigit {c : Char} (h : c.isDigit = true) : foldLetter c ≠ 't' := by
  have key : ∀ n < 128, (Char.ofNat n).isDigit = true → foldLetter (Char.ofNat n) ≠ 't' := by
    decide
  exact ascii_induction (p := fun c => c.isDigit = true → foldLetter c ≠ 't') key
    (toNat_lt_of_isAlphanum (isAlphanum_of_isDigit h)) h

/-- A token that does not start with a `t` has nothing in front of its number. -/
theorem numberPart_eq {token : List Char} (h : ∀ c ∈ token.head?, foldLetter c ≠ 't') :
    numberPart token = token := by
  cases token with
  | nil => rfl
  | cons c token =>
    have hc : (foldLetter c == 't') = false := beq_eq_false_iff_ne.2 (h c rfl)
    simp [numberPart, keyword?, hc]

theorem scenarioNumber?_toDigits {id : UInt32} (h : id ≠ 0) :
    scenarioNumber? (Nat.toDigits 10 id.toNat) = some id := by
  have hdigits : ∀ c ∈ Nat.toDigits 10 id.toNat, isDigit c = true := fun c hc =>
    isDigit_of_isAsciiDigit (isAsciiDigit_of_isDigit (isDigit_of_mem_toDigits hc))
  have hpart : numberPart (Nat.toDigits 10 id.toNat) = Nat.toDigits 10 id.toNat :=
    numberPart_eq fun c hc =>
      foldLetter_ne_of_isDigit (isDigit_of_mem_toDigits (List.mem_of_mem_head? hc))
  have hword : word32? (Nat.toDigits 10 id.toNat) = some id := by
    have hlt : id.toNat < UInt32.size := id.toNat_lt
    rw [word32?, decimal?_toDigits]
    simp [hlt]
  rw [scenarioNumber?, hpart, List.takeWhile_eq_self_iff.2 hdigits, hword]
  simp [h]

end Acceptance
