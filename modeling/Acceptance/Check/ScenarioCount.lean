import Acceptance.Check.Analysis
import Acceptance.Check.Report
import Acceptance.Text.Digit
import Acceptance.Text.Letter

/-!
# Number and numbering of scenarios

A source has as many tests as comments that open with a numbered scenario tag, and the numbers run
from 1 without gap or repetition. Numbers are compared in ascending order, equal ones in source
order; numbers in other digits than the ASCII ones, or from `2 ^ 64` on, count as tags but not as
numbers.

Results:
* `firstGap?_eq_none_iff`: there is no gap exactly if the numbers are the expected ones in turn.
-/

namespace Acceptance.Check

open Text

/-- Model of `SCENARIO_TAG`: the digits of the numbered scenario tag that a text starts with. -/
def scenarioTag? (content : List Char) : Option (List Char) := do
  let rest ← after? "[SCENARIO".toList content
  let rest ← blanks? rest
  let (digits, rest) ← run? isDigit rest
  let _ ← char? ']' rest
  return digits

/-- A numbered scenario tag: its line, and its number if it has a value. -/
structure ScenarioTag where
  line : Nat
  number : Option Nat
  deriving Repr, DecidableEq

/-- The numbered scenario tags among comments. -/
def scenarioTags (comments : List Source.Comment) : List ScenarioTag :=
  comments.filterMap fun c => (scenarioTag? c.content).map fun digits => ⟨c.line, word64? digits⟩

/-- A number with its line. -/
structure Numbered where
  number : Nat
  line : Nat
  deriving Repr, DecidableEq

/-- The tags that have a number, in ascending order; equal numbers keep their order. -/
def numbered (tags : List ScenarioTag) : List Numbered :=
  (tags.filterMap fun t => t.number.map fun n => ⟨n, t.line⟩).mergeSort fun a b =>
    decide (a.number ≤ b.number)

/-- Model of the loop of `scenario_count`: the first entry that has not the number expected at its
place, and that number. -/
def firstGap? (expected : Nat) : List Numbered → Option (Nat × Numbered)
  | [] => none
  | n :: rest => if n.number = expected then firstGap? (expected + 1) rest else some (expected, n)

/-- The issue about a gap. -/
def gapIssue (gap : Nat × Numbered) : Issue :=
  let expected := gap.1
  let found := gap.2.number
  Issue.warning Rule.scenarioNumberingGap
    s!"Scenario numbering gap: expected {expected} but found {found}" gap.2.line

/-- Model of `scenario_count`: the issues about number and numbering of scenarios. -/
def scenarioCount (a : Analysis) : List Issue :=
  let tests := a.tests.length
  let tags := scenarioTags a.source.comments
  let scenarios := tags.length
  (if tests = scenarios then []
    else [Issue.error Rule.scenarioCountMismatch
      s!"Scenario count mismatch: {tests} test procedures but {scenarios} scenarios" 1]) ++
  ((firstGap? 1 (numbered tags)).map gapIssue).toList

/-! ## First laws -/

theorem firstGap?_eq_none_iff {expected : Nat} {entries : List Numbered} :
    firstGap? expected entries = none ↔
      entries.map Numbered.number = List.range' expected entries.length := by
  induction entries generalizing expected with
  | nil => simp [firstGap?]
  | cons n rest ih =>
    by_cases h : n.number = expected
    · simp [firstGap?, h, ih, List.range'_succ]
    · simp [firstGap?, h, List.range'_succ]

end Acceptance.Check
