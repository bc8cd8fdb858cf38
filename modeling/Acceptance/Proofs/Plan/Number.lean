import Mathlib.Data.List.TakeWhile
import Acceptance.Proofs.Plan.Label
import Acceptance.Proofs.Text.Reader

/-!
# Numbers of scenarios

The token of a scenario heading writes a number if it starts with ASCII digits, maybe behind a `T` or
`TC` in any case. The number is read as it is written, unless it is zero or too great.

Main results:

* `exists_numberPart`, `numberPart_append`: what stands in front of a number.
* `scenarioNumber?_eq_some_iff`: the number of a scenario is the one that its token writes.
-/

namespace Acceptance

open Text

/-! ## Specification -/

/-- What may stand in front of a number, in lower case. -/
def numberFronts : List (List Char) := [[], ['t'], ['t', 'c']]

/-- Whether a token writes a number in base ten: with ASCII digits and no other digit behind them, at
its start or behind `T` or `TC` in any case. -/
def WritesNumber (token : List Char) (n : ℕ) : Prop :=
  ∃ front digits rest, token = front ++ (digits ++ rest) ∧ front.map foldLetter ∈ numberFronts ∧
    digits ≠ [] ∧ (∀ c ∈ digits, isAsciiDigit c = true) ∧ (∀ c ∈ rest.head?, isDigit c = false) ∧
    Nat.ofDigitChars 10 digits 0 = n

/-! ## The digits of a token -/

/-- An ASCII digit is no letter. -/
theorem foldLetter_of_isAsciiDigit {c : Char} (h : isAsciiDigit c = true) :
    foldLetter c ≠ 't' ∧ foldLetter c ≠ 'c' := by
  have key : ∀ n < 128, isAsciiDigit (Char.ofNat n) = true →
      foldLetter (Char.ofNat n) ≠ 't' ∧ foldLetter (Char.ofNat n) ≠ 'c' := by
    decide
  exact ascii_induction
    (p := fun c => isAsciiDigit c = true → foldLetter c ≠ 't' ∧ foldLetter c ≠ 'c') key
    (toNat_lt_of_isAsciiDigit h) h

/-- A token is its number with one of the fronts. -/
theorem exists_numberPart (token : List Char) :
    ∃ front, token = front ++ numberPart token ∧ front.map foldLetter ∈ numberFronts := by
  have hnone : ∃ front, token = front ++ token ∧ front.map foldLetter ∈ numberFronts :=
    ⟨[], rfl, by decide⟩
  have hfront {word rest : List Char} (h : keyword? word token = some rest)
      (hw : word ∈ numberFronts) :
      ∃ front, token = front ++ rest ∧ front.map foldLetter ∈ numberFronts := by
    obtain ⟨front, hfold, he⟩ := keyword?_eq_some_iff.1 h
    exact ⟨front, he, hfold ▸ hw⟩
  unfold numberPart
  extract_lets startsDigit
  clear_value startsDigit
  split
  · next rest other htc =>
    split_ifs
    · exact hfront htc (by decide)
    · split
      · next rest ht =>
        split_ifs
        · exact hfront ht (by decide)
        · exact hnone
      · exact hnone
  · next rest _ ht =>
    split_ifs
    · exact hfront ht (by decide)
    · exact hnone
  · exact hnone

/-- Behind each of the fronts the number is found. -/
theorem numberPart_append {front : List Char} (hfront : front.map foldLetter ∈ numberFronts) {d : Char}
    (hd : isAsciiDigit d = true) (s : List Char) : numberPart (front ++ d :: s) = d :: s := by
  obtain ⟨hdt, hdc⟩ := foldLetter_of_isAsciiDigit hd
  have hdigit : isDigit d = true := isDigit_of_isAsciiDigit hd
  simp only [numberFronts, List.mem_cons, List.not_mem_nil, or_false] at hfront
  rcases hfront with h | h | h
  · rw [List.map_eq_nil_iff.1 h]
    exact numberPart_eq fun c hc => by rwa [← Option.some.inj hc]
  · obtain ⟨t, rest, rfl, ht, hrest⟩ := List.map_eq_cons_iff.1 h
    rw [List.map_eq_nil_iff.1 hrest]
    simp [numberPart, keyword?, ht, hdc, hdigit]
  · obtain ⟨t, rest, rfl, ht, hrest⟩ := List.map_eq_cons_iff.1 h
    obtain ⟨c, rest, rfl, hc, hrest⟩ := List.map_eq_cons_iff.1 hrest
    rw [List.map_eq_nil_iff.1 hrest]
    simp [numberPart, keyword?, ht, hc, hdigit]

/-! ## Reading a number -/

theorem word32?_eq_some_iff {s : List Char} {n : UInt32} :
    word32? s = some n ↔ s ≠ [] ∧ (∀ c ∈ s, isAsciiDigit c = true) ∧
      Nat.ofDigitChars 10 s 0 = n.toNat := by
  have hsize : n.toNat < UInt32.size := n.toNat_lt
  rw [← decimal?_eq_some_iff, word32?]
  cases decimal? s with
  | none => simp
  | some m =>
    simp only [Option.ite_none_right_eq_some, Option.some.injEq]
    constructor
    · rintro ⟨hlt, rfl⟩
      exact (UInt32.toNat_ofNat_of_lt' hlt).symm
    · rintro rfl
      exact ⟨hsize, UInt32.ofNat_toNat⟩

/-- The number of a scenario is the one that its token writes, if it is not zero. -/
theorem scenarioNumber?_eq_some_iff {token : List Char} {id : UInt32} :
    scenarioNumber? token = some id ↔ WritesNumber token id.toNat ∧ id ≠ 0 := by
  have hnumber : scenarioNumber? token = some id ↔
      word32? ((numberPart token).takeWhile isDigit) = some id ∧ id ≠ 0 := by
    rw [scenarioNumber?]
    cases word32? ((numberPart token).takeWhile isDigit) with
    | none => simp
    | some n =>
      simp only [Option.bind_eq_bind, Option.bind_some, Option.ite_none_left_eq_some,
        Option.pure_def, Option.some.injEq]
      constructor
      · rintro ⟨hn, rfl⟩
        exact ⟨rfl, hn⟩
      · rintro ⟨rfl, hn⟩
        exact ⟨hn, rfl⟩
  rw [hnumber, word32?_eq_some_iff]
  refine and_congr_left fun _ => ⟨?_, ?_⟩
  · rintro ⟨hne, hdigits, hvalue⟩
    obtain ⟨front, htoken, hfront⟩ := exists_numberPart token
    refine ⟨front, _, (numberPart token).dropWhile isDigit, ?_, hfront, hne, hdigits,
      fun c hc => head?_dropWhile hc, hvalue⟩
    rw [List.takeWhile_append_dropWhile]
    exact htoken
  · rintro ⟨front, digits, rest, rfl, hfront, hne, hdigits, hrest, hvalue⟩
    have hpart : numberPart (front ++ (digits ++ rest)) = digits ++ rest := by
      obtain ⟨d, more, rfl⟩ := List.exists_cons_of_ne_nil hne
      exact numberPart_append hfront (hdigits d List.mem_cons_self) (more ++ rest)
    have htake : (digits ++ rest).takeWhile isDigit = digits := by
      rw [List.takeWhile_append_of_pos fun c hc => isDigit_of_isAsciiDigit (hdigits c hc)]
      have : rest.takeWhile isDigit = [] := by
        cases rest with
        | nil => rfl
        | cons c rest => exact List.takeWhile_cons_of_neg (by simp [hrest c rfl])
      rw [this, List.append_nil]
    rw [hpart, htake]
    exact ⟨hne, hdigits, hvalue⟩

end Acceptance
