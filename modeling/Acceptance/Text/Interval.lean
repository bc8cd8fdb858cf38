/-!
# Sets of code points as intervals

A character class of a standard is given as a list of closed intervals of code points. `covers`
decides membership. Results: `covers_eq_true_iff` reads membership off the list.
-/

namespace Acceptance.Text

/-- A closed interval of code points. -/
structure Interval where
  first : Nat
  last : Nat
  deriving Repr, DecidableEq

namespace Interval

/-- Whether the interval holds the code point `n`. -/
def holds (i : Interval) (n : Nat) : Bool :=
  decide (i.first ≤ n) && decide (n ≤ i.last)

/-- Intervals from pairs of bounds. -/
def ofPairs (bounds : List (Nat × Nat)) : List Interval :=
  bounds.map fun (first, last) => ⟨first, last⟩

end Interval

/-- Whether one of the intervals holds the code point of `c`. -/
def covers (intervals : List Interval) (c : Char) : Bool :=
  intervals.any fun i => i.holds c.toNat

theorem covers_eq_true_iff {intervals : List Interval} {c : Char} :
    covers intervals c = true ↔ ∃ i ∈ intervals, i.first ≤ c.toNat ∧ c.toNat ≤ i.last := by
  simp [covers, Interval.holds]

end Acceptance.Text
