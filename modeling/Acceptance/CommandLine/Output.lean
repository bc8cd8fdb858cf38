import Acceptance.Check.Record
import Acceptance.Codeunit.Convention
import Acceptance.Json.Printer
import Acceptance.Plan.Record

/-!
# What commands print

Plans, reports, rules and conventions as lines for readers, or as JSON in its long layout.

Results:
* `length_padded`: padding fills up to the width.
-/

namespace Acceptance.Output

/-- A text with a line feed behind it. -/
def line (s : String) : String :=
  s ++ "\n"

/-- Lines, each with a line feed behind it. -/
def lines (l : List String) : String :=
  String.join (l.map line)

/-- The text with spaces behind it up to a number of characters. -/
def padded (width : Nat) (s : String) : String :=
  s ++ String.ofList (List.replicate (width - s.length) ' ')

/-- JSON in its long layout. -/
def json (v : Json) : String :=
  line v.pretty

/-- The lines of a scenario. -/
def scenario (s : Scenario) : List String :=
  s!"  [{s.id.toNat}] {s.title} ({s.priority})" ::
    Group.all.flatMap fun g =>
      (s.groupSteps g).map fun step => s!"      {padded 5 g.tag} {step}"

/-- Model of `write_document`: a plan for readers. Metadata that are empty are left out. -/
def plan (p : Plan) : String :=
  let m := p.metadata
  let metadata :=
    [("Test plan", m.testPlanId), ("Work item", m.workItem), ("Project", m.project),
      ("Feature", m.feature)].filter fun field => !field.2.isEmpty
  lines (metadata.map (fun field => s!"{field.1}: {field.2}") ++
    [s!"Scenarios: {p.scenarios.length}"] ++ p.scenarios.flatMap scenario)

/-- Model of `write_issues`: the issues of a report and its totals. -/
def issues (r : Report) : String :=
  lines (r.summary.issues.map (·.display) ++ [r.summary.display])

/-- Model of `rules`: the rule catalog. -/
def rules : String :=
  lines (Rule.catalog.flatMap fun r =>
    [s!"{r.code} ({r.severity.key}, {r.category.key})", s!"    {r.description}",
      s!"    e.g. {r.sample}"])

/-- Model of `conventions`: the conventions of generated code. -/
def conventions : String :=
  lines (Convention.all.map fun c => s!"{padded 36 c.id} {c.summary}")

/-! ## First laws -/

theorem length_padded (width : Nat) (s : String) :
    (padded width s).length = max width s.length := by
  simp [padded]
  omega

end Acceptance.Output
