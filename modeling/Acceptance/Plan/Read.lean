import Acceptance.Markup.Strip
import Acceptance.Plan.Block
import Acceptance.Plan.Step
import Acceptance.Text.Lines

/-!
# Reading a plan

Every text is a plan. Its metadata stand behind bold labels on any line, its scenarios in the blocks
of scenario headings. A scenario without a number of its own is numbered by its place.

Results:
* `length_scenarios_read`: there is one scenario for each scenario heading.
-/

namespace Acceptance

open Text

namespace Metadata

/-- The first value of a metadata label that is not blank. -/
def find (words : List String) (lines : List (List Char)) : String :=
  let values := lines.filterMap (metadata? (words.map String.toList))
  String.ofList ((values.find? fun value => !value.isEmpty).getD [])

/-- Model of `extract_metadata`: the metadata on some lines. -/
def ofLines (lines : List (List Char)) : Metadata where
  testPlanId := find ["test", "plan", "id"] lines
  workItem := find ["work", "item"] lines
  project := find ["project"] lines
  feature := find ["feature"] lines

end Metadata

/-- The number of the scenario at a place, counted from one. -/
def placeNumber (place : Nat) : UInt32 :=
  UInt32.ofNat (min place (UInt32.size - 1))

/-- Model of `finish`: the scenario in the block at a place. -/
def Block.scenario (place : Nat) (block : Block) : Scenario :=
  Scenario.ofLines ((scenarioNumber? block.heading.token).getD (placeNumber place))
    (String.ofList (Markup.withoutMarkup block.heading.title)) block.lines

/-- Model of `parse_scenarios` behind its loop: the scenarios in some blocks, of which the first has
the given place. -/
def Block.scenarios : (place : Nat) → List Block → List Scenario
  | _, [] => []
  | place, block :: rest => block.scenario place :: scenarios (place + 1) rest

namespace Plan

/-- The plan on some lines. -/
def ofLines (lines : List (List Char)) : Plan where
  metadata := Metadata.ofLines lines
  scenarios := Block.scenarios 1 (Block.ofLines lines)

/-- Model of `TestPlanParser::parse`: the plan that a text describes. -/
def read (text : String) : Plan :=
  ofLines (Text.lines text.toList)

end Plan

/-! ## First laws -/

@[simp] theorem Block.length_scenarios (place : Nat) (blocks : List Block) :
    (scenarios place blocks).length = blocks.length := by
  induction blocks generalizing place with
  | nil => rfl
  | cons block rest ih => simp [scenarios, ih]

theorem Plan.length_scenarios_read (text : String) :
    (read text).scenarios.length =
      (Text.lines text.toList).countP fun line => (Heading.ofLine? line).isSome := by
  simp [read, ofLines, Block.ofLines, Block.length_blocksFrom]

end Acceptance
