/-!
# Searching a text

A recogniser looks at a text from its first character on and says what it finds there. A search
tries it at every position from left to right: `firstMatch?` stops at the first find, `allMatches`
goes on behind each find, so finds do not overlap.

Results:
* `occursIn_eq_true_iff`: occurring means being an infix.
* `firstMatch?_eq_none_iff`: nothing is found exactly if no suffix has a find.
-/

namespace Acceptance.Text

/-- What the recogniser finds at the first position where it finds something. -/
def firstMatch? {α : Type} (find? : List Char → Option α) : List Char → Option α
  | [] => find? []
  | c :: s =>
    match find? (c :: s) with
    | some a => some a
    | none => firstMatch? find? s

/-- The finds of a recogniser with the byte offsets where they start. The recogniser is given the
character before the position and returns the text behind the find. `skip` characters belong to
the find before. -/
def matchesFrom {α : Type} (find? : Option Char → List Char → Option (α × List Char))
    (offset skip : Nat) (before : Option Char) : List Char → List (Nat × α)
  | [] => []
  | c :: s =>
    match skip with
    | skip + 1 => matchesFrom find? (offset + c.utf8Size) skip (some c) s
    | 0 =>
      match find? before (c :: s) with
      | some (a, rest) =>
        (offset, a) :: matchesFrom find? (offset + c.utf8Size) (s.length - rest.length) (some c) s
      | none => matchesFrom find? (offset + c.utf8Size) 0 (some c) s

/-- All finds of a recogniser from left to right, none overlapping another. -/
def allMatches {α : Type} (find? : Option Char → List Char → Option (α × List Char))
    (s : List Char) : List (Nat × α) :=
  matchesFrom find? 0 0 none s

/-- Whether one text occurs in another. -/
def occursIn (part : List Char) : List Char → Bool
  | [] => part.isEmpty
  | c :: s => part.isPrefixOf (c :: s) || occursIn part s

/-! ## First laws -/

theorem firstMatch?_eq_none_iff {α : Type} {find? : List Char → Option α} {s : List Char} :
    firstMatch? find? s = none ↔ ∀ t, t <:+ s → find? t = none := by
  induction s with
  | nil => simp [firstMatch?]
  | cons c s ih =>
    simp only [firstMatch?, List.suffix_cons_iff, forall_eq_or_imp]
    cases find? (c :: s) with
    | none => simp [ih]
    | some a => simp

theorem occursIn_eq_true_iff {part s : List Char} : occursIn part s = true ↔ part <:+: s := by
  induction s with
  | nil => simp [occursIn]
  | cons c s ih => simp [occursIn, ih, List.infix_cons_iff]

end Acceptance.Text
