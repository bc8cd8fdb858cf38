import Acceptance.Text.Digit

/-!
# Test plans

A plan has metadata and scenarios. A scenario has steps in three groups: what is given, what is done
(when), and what is expected then. An AND step extends the group that was active where it stood.

Results:
* `Group.ofTag?_tag`: a group is told by its tag.
* `length_groupSteps`: a group holds its labelled steps and the AND steps that extend it.
* `workItemNumber?_eq_none_iff`: a work item has a number exactly if it holds a digit.
-/

namespace Acceptance

/-- What a plan says about itself; what it leaves out is empty. -/
structure Metadata where
  testPlanId : String := ""
  /-- Usually a number and a title. -/
  workItem : String := ""
  project : String := ""
  feature : String := ""
  deriving Repr, DecidableEq, Inhabited

namespace Metadata

/-- Model of `work_item_number`: the first run of ASCII digits in the work item. -/
def workItemNumber? (m : Metadata) : Option String :=
  match (m.workItem.toList.dropWhile fun c => !Text.isAsciiDigit c).takeWhile Text.isAsciiDigit with
  | [] => none
  | digits => some (String.ofList digits)

end Metadata

/-- Model of `StepContext`: a group of steps. -/
inductive Group where
  /-- Preconditions. -/
  | given
  /-- The action under test. -/
  | when
  /-- The outcome that is expected then. -/
  | expected
  deriving Repr, DecidableEq, Inhabited

namespace Group

/-- All groups, in the order of a test. -/
def all : List Group := [given, when, expected]

/-- Model of `StepContext::tag`: the tag of the group in comments. -/
def tag : Group → String
  | given => "GIVEN"
  | when => "WHEN"
  | expected => "THEN"

/-- Model of `StepContext::label`: the label of the group in plans. -/
def label : Group → String
  | given => "Given"
  | when => "When"
  | expected => "Then"

/-- The group with a tag. -/
def ofTag? (tag : String) : Option Group :=
  all.find? (·.tag == tag)

end Group

/-- An AND step with the group that it extends. -/
structure AndStep where
  group : Group
  text : String
  deriving Repr, DecidableEq

/-- Model of `DEFAULT_PRIORITY`: the priority of a scenario that declares none. -/
def defaultPriority : String := "Medium"

/-- One test case. -/
structure Scenario where
  id : UInt32
  /-- The title without emphasis. -/
  title : String
  priority : String := defaultPriority
  given : List String := []
  when : List String := []
  expected : List String := []
  ands : List AndStep := []
  deriving Repr, DecidableEq

namespace Scenario

/-- Model of `steps`: the labelled steps of a group. -/
def steps (s : Scenario) : Group → List String
  | .given => s.given
  | .when => s.when
  | .expected => s.expected

/-- Model of `and_steps`: the texts of the AND steps that extend a group. -/
def andSteps (s : Scenario) (g : Group) : List String :=
  (s.ands.filter (·.group == g)).map (·.text)

/-- Model of `group`: a whole group, its labelled steps, then the AND steps that extend it. -/
def groupSteps (s : Scenario) (g : Group) : List String :=
  s.steps g ++ s.andSteps g

/-- Model of `step_text`: the labelled steps of all groups, with spaces between them. -/
def stepText (s : Scenario) : String :=
  " ".intercalate (s.given ++ s.when ++ s.expected)

/-- Model of `full_text`: all steps, the AND steps last, with spaces between them. -/
def fullText (s : Scenario) : String :=
  s.ands.foldl (fun text step => text ++ " " ++ step.text) s.stepText

/-- Model of `step_count`: the number of steps. -/
def stepCount (s : Scenario) : Nat :=
  s.given.length + s.when.length + s.expected.length + s.ands.length

end Scenario

/-- Model of `ParsedDocument`: a test plan. -/
structure Plan where
  metadata : Metadata := {}
  scenarios : List Scenario := []
  deriving Repr, DecidableEq, Inhabited

/-! ## First laws -/

theorem Group.ofTag?_tag (g : Group) : ofTag? g.tag = some g := by
  cases g <;> decide

theorem Scenario.length_groupSteps (s : Scenario) (g : Group) :
    (s.groupSteps g).length = (s.steps g).length + s.ands.countP (·.group == g) := by
  simp [groupSteps, andSteps, List.countP_eq_length_filter]

theorem Metadata.workItemNumber?_eq_none_iff {m : Metadata} :
    m.workItemNumber? = none ↔ ∀ c ∈ m.workItem.toList, Text.isAsciiDigit c = false := by
  unfold workItemNumber?
  generalize m.workItem.toList = s
  induction s with
  | nil => simp
  | cons c s ih =>
    by_cases h : Text.isAsciiDigit c = true
    · simp [h]
    · simpa [h] using ih

end Acceptance
