import Acceptance.Check.Analysis
import Acceptance.Check.Report
import Acceptance.Text.Digit

/-!
# Names of tests

The name of a test starts with the letter T, four digits and a low line, holds no quotation mark and
has at most 120 characters. Messages show the name without the quotation marks around it.

Results:
* `hasNumber_iff`: what it means for a name to start with a number.
-/

namespace Acceptance.Check

open Text

/-- Model of `MAX_TEST_NAME_LEN`: the longest name of a test without a warning. -/
def maxTestNameLength : Nat := 120

/-- Whether `c` is a double or single quotation mark. -/
def isQuote (c : Char) : Bool :=
  c == '"' || c == '\''

/-- Model of `TEST_NAME_PREFIX`: whether a name starts with the letter T, four digits and a low
line. -/
def hasNumber : List Char → Bool
  | t :: a :: b :: c :: d :: low :: _ =>
    t == 'T' && isDigit a && isDigit b && isDigit c && isDigit d && low == '_'
  | _ => false

/-- Model of the loop body of `naming`: the issues about the name of one test. -/
def testNaming (test : Source.Routine) : List Issue :=
  let name := test.name
  let shown := String.ofList (trimWhile isQuote name)
  let length := name.length
  (if hasNumber name then []
    else [Issue.error Rule.testNamingPrefix
      s!"Test procedure \"{shown}\" must start with T#### prefix (e.g., T0001_)"
      test.anchorLine]) ++
  (if name.any isQuote then
      [Issue.error Rule.testNamingQuotes
        s!"Test procedure \"{shown}\" must not contain quotation marks" test.anchorLine]
    else []) ++
  (if length > maxTestNameLength then
      [Issue.warning Rule.testNamingLength
        s!"Test procedure \"{shown}\" exceeds {maxTestNameLength} characters ({length} chars)"
        test.anchorLine]
    else [])

/-- Model of `naming`: the issues about the names of tests. -/
def naming (a : Analysis) : List Issue :=
  a.tests.flatMap testNaming

/-! ## First laws -/

theorem hasNumber_iff {name : List Char} :
    hasNumber name = true ↔ ∃ a b c d rest, name = 'T' :: a :: b :: c :: d :: '_' :: rest ∧
      isDigit a = true ∧ isDigit b = true ∧ isDigit c = true ∧ isDigit d = true := by
  unfold hasNumber
  split
  · simp only [Bool.and_eq_true, beq_iff_eq, List.cons.injEq]
    constructor
    · rintro ⟨⟨⟨⟨⟨rfl, ha⟩, hb⟩, hc⟩, hd⟩, rfl⟩
      exact ⟨_, _, _, _, _, ⟨rfl, rfl, rfl, rfl, rfl, rfl, rfl⟩, ha, hb, hc, hd⟩
    · rintro ⟨_, _, _, _, _, ⟨rfl, rfl, rfl, rfl, rfl, rfl, rfl⟩, ha, hb, hc, hd⟩
      exact ⟨⟨⟨⟨⟨rfl, ha⟩, hb⟩, hc⟩, hd⟩, rfl⟩
  · next hne =>
    simp only [Bool.false_eq_true, false_iff]
    rintro ⟨a, b, c, d, rest, rfl, -⟩
    exact hne _ _ _ _ _ _ _ rfl

end Acceptance.Check
