import Acceptance.Check.Analysis
import Acceptance.Check.Report
import Acceptance.Text.Letter

/-!
# Comments inside tests

Inside a test every comment starts with one of four tags, and each tag occurs. Blank comments do not
count. A forbidden comment is shown with at most its first 50 characters.

Results:
* `isAllowed_of_isTagged`: a tagged comment is allowed.
-/

namespace Acceptance.Check

open Text

/-- A tag that every test needs: how comments start with it, the rule for its absence, and how a
message shows it. -/
structure Tag where
  opening : List Char
  rule : String
  shown : String

/-- Model of `MISSING`: the tags, in the order in which their absence is reported. -/
def tags : List Tag :=
  [⟨"[SCENARIO".toList, Rule.missingScenario, "// [SCENARIO X]"⟩,
   ⟨"[GIVEN]".toList, Rule.missingGiven, "// [GIVEN]"⟩,
   ⟨"[WHEN]".toList, Rule.missingWhen, "// [WHEN]"⟩,
   ⟨"[THEN]".toList, Rule.missingThen, "// [THEN]"⟩]

/-- Whether a comment starts with a tag. -/
def Tag.marks (tag : Tag) (c : Source.Comment) : Bool :=
  tag.opening.isPrefixOf c.content

/-- Whether a comment starts with any of the tags, which are also the `STRUCTURAL_TAGS`. -/
def isTagged (c : Source.Comment) : Bool :=
  tags.any (·.marks c)

/-- Whether a comment may stand inside a test. -/
def isAllowed (c : Source.Comment) : Bool :=
  allBlank c.content || isTagged c

/-- The start of a comment that a message shows. -/
def excerpt (c : Source.Comment) : String :=
  String.ofList ((trimEnd c.content).take 50)

/-- Model of the loop body of `comment_structure`: the issues about the comments of one test. -/
def testComments (a : Analysis) (test : Source.Routine) : List Issue :=
  let name := String.ofList test.name
  let comments := a.commentsOf test
  let missing := tags.filter fun tag => !comments.any tag.marks
  let forbidden := comments.filter fun c => !isAllowed c
  missing.map (fun tag =>
    let shown := tag.shown
    Issue.error tag.rule s!"Test \"{name}\" missing {shown} comment" test.anchorLine) ++
  forbidden.map fun c =>
    let start := excerpt c
    Issue.error Rule.forbiddenComment s!"Forbidden comment in test \"{name}\": \"{start}\"" c.line

/-- Model of `comment_structure`: the issues about comments inside tests. -/
def comments (a : Analysis) : List Issue :=
  a.tests.flatMap (testComments a)

/-! ## First laws -/

theorem isAllowed_of_isTagged {c : Source.Comment} (h : isTagged c = true) :
    isAllowed c = true := by
  simp [isAllowed, h]

end Acceptance.Check
