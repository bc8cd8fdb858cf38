import Acceptance.Check.Analysis
import Acceptance.Check.Report
import Acceptance.Text.Letter
import Acceptance.Text.Search
import Acceptance.Text.Word

/-!
# Forbidden uses

The property TestPermissions is never set to Disabled, and a test never calls Commit. Both are
looked for in the masked view, without regard to case and only where the name stands as a word.

Results:
* `testCommits_eq_nil_iff`: a test has no issue exactly when none of its lines has a call.
-/

namespace Acceptance.Check

open Text

/-- Model of `PERMISSIONS_DISABLED`: a setting of TestPermissions to Disabled that starts here. -/
def disabledPermissions? (before : Option Char) (s : List Char) : Option (Unit × List Char) := do
  guard (isEdge before)
  let rest ← keyword? "testpermissions".toList s
  let rest ← char? '=' (skipBlanks rest)
  let rest ← keyword? "disabled".toList (skipBlanks rest)
  guard (isEdge rest.head?)
  return ((), rest)

/-- Model of `test_permissions`: the issues about TestPermissions. -/
def permissions (a : Analysis) : List Issue :=
  (allMatches disabledPermissions? a.source.masked).map fun (offset, _) =>
    Issue.error Rule.forbiddenTestPermissions
      "TestPermissions = Disabled is forbidden. Use SetTestPermissions() procedure instead."
      (a.source.lineOf offset)

/-- Model of `COMMIT_CALL`: a call of Commit that starts here. -/
def commitCall? (before : Option Char) (s : List Char) : Option (Unit × List Char) := do
  guard (isEdge before)
  let rest ← keyword? "commit".toList s
  let rest ← char? '(' (skipBlanks rest)
  return ((), rest)

/-- The issue about a call of Commit in a test. -/
def commitIssue (test : Source.Routine) (line : Nat) : Issue :=
  let name := String.ofList test.name
  Issue.error Rule.forbiddenCommitInTest
    s!"Commit() is forbidden in test procedure \"{name}\". Only allowed in Initialize()." line

/-- Model of the loop body of `commit_usage`: the issues about calls of Commit on those of the lines
that belong to one test. -/
def testCommits (lines : List Source.Line) (test : Source.Routine) : List Issue :=
  (lines.filter fun line => test.hasLine line.number).flatMap fun line =>
    (allMatches commitCall? line.masked).map fun _ => commitIssue test line.number

/-- Model of `commit_usage`: the issues about calls of Commit in tests. -/
def commit (a : Analysis) : List Issue :=
  a.tests.flatMap (testCommits a.source.lines)

/-! ## First laws -/

theorem testCommits_eq_nil_iff (lines : List Source.Line) (test : Source.Routine) :
    testCommits lines test = [] ↔ ∀ line ∈ lines, test.hasLine line.number = true →
      allMatches commitCall? line.masked = [] := by
  simp [testCommits]

end Acceptance.Check
