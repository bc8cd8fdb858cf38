import Acceptance.Json.Record
import Acceptance.Plan.Basic

/-!
# Plans in JSON

A plan is written as a record with its metadata and its scenarios. Metadata may be left out in part;
a scenario needs all its fields.

Results:
* `Metadata.ofJson?_toJson`, `AndStep.ofJson?_toJson`: what is written can be read.
-/

namespace Acceptance

open Json

namespace Metadata

/-- The metadata as a record. -/
def toJson (m : Metadata) : Json :=
  .object [("testPlanId", .text m.testPlanId), ("workItem", .text m.workItem),
    ("project", .text m.project), ("feature", .text m.feature)]

/-- The metadata that a record gives. -/
def ofJson? (v : Json) : Option Metadata := do
  match ← fields? ["testPlanId", "workItem", "project", "feature"] v with
  | [testPlanId, workItem, project, feature] =>
    return {
      testPlanId := ← defaulted? "" text? testPlanId
      workItem := ← defaulted? "" text? workItem
      project := ← defaulted? "" text? project
      feature := ← defaulted? "" text? feature }
  | _ => none

end Metadata

/-- The group whose tag a value gives, as a text or as the name of a member without content. -/
def Group.ofJson? : Json → Option Group
  | .text tag => ofTag? tag
  | .object [(tag, .null)] => ofTag? tag
  | _ => none

namespace AndStep

/-- The step as a record. -/
def toJson (s : AndStep) : Json :=
  .object [("context", .text s.group.tag), ("text", .text s.text)]

/-- The step that a record gives. -/
def ofJson? (v : Json) : Option AndStep := do
  match ← fields? ["context", "text"] v with
  | [group, text] =>
    return { group := ← required? Group.ofJson? group, text := ← required? text? text }
  | _ => none

end AndStep

namespace Scenario

/-- The scenario as a record. -/
def toJson (s : Scenario) : Json :=
  let texts (steps : List String) : Json := .list (steps.map .text)
  .object [("id", .natural s.id.toNat), ("title", .text s.title), ("priority", .text s.priority),
    ("given", texts s.given), ("when", texts s.when), ("then", texts s.expected),
    ("and", .list (s.ands.map AndStep.toJson))]

/-- The scenario that a record gives. -/
def ofJson? (v : Json) : Option Scenario := do
  match ← fields? ["id", "title", "priority", "given", "when", "then", "and"] v with
  | [id, title, priority, given, when, expected, ands] =>
    return {
      id := ← required? word32? id
      title := ← required? text? title
      priority := ← required? text? priority
      given := ← required? (listOf? text?) given
      when := ← required? (listOf? text?) when
      expected := ← required? (listOf? text?) expected
      ands := ← required? (listOf? AndStep.ofJson?) ands }
  | _ => none

end Scenario

namespace Plan

/-- The plan as a record. -/
def toJson (p : Plan) : Json :=
  .object [("metadata", p.metadata.toJson), ("scenarios", .list (p.scenarios.map Scenario.toJson))]

/-- The plan that a record gives. -/
def ofJson? (v : Json) : Option Plan := do
  match ← fields? ["metadata", "scenarios"] v with
  | [metadata, scenarios] =>
    return {
      metadata := ← required? Metadata.ofJson? metadata
      scenarios := ← required? (listOf? Scenario.ofJson?) scenarios }
  | _ => none

end Plan

/-! ## First laws -/

theorem Metadata.ofJson?_toJson (m : Metadata) : ofJson? m.toJson = some m := by
  rfl

theorem AndStep.ofJson?_toJson (s : AndStep) : ofJson? s.toJson = some s := by
  have hgroup : Group.ofJson? (.text s.group.tag) = some s.group := Group.ofTag?_tag s.group
  simp [toJson, ofJson?, fields?, field?, required?, text?, hgroup]

end Acceptance
