import Acceptance.Check.Report
import Acceptance.Json.Value

/-!
# Reports in JSON

Results are written as an object with one list of issues for each category, in the order in which
the categories came. The rules are written as an object by their codes.
-/

namespace Acceptance

/-- The issue as a record. -/
def Issue.toJson (i : Issue) : Json :=
  .object [("rule", .text i.rule), ("severity", .text i.severity.key),
    ("message", .text i.message), ("line", .natural i.line)]

/-- The issues as a list. -/
def issuesToJson (issues : List Issue) : Json :=
  .list (issues.map Issue.toJson)

/-- The issues by category. -/
def Results.toJson (r : Results) : Json :=
  .object (r.entries.map fun e => (e.1.key, issuesToJson e.2))

/-- The totals as a record. -/
def Summary.toJson (s : Summary) : Json :=
  .object [("totalIssues", .natural s.total), ("errors", .natural s.errors),
    ("warnings", .natural s.warnings), ("passed", .bool s.passed),
    ("issues", issuesToJson s.issues)]

/-- The report as a record. -/
def Report.toJson (r : Report) : Json :=
  .object [("checks", r.checks.toJson), ("summary", r.summary.toJson),
    ("accepted", .bool r.accepted)]

/-- The rule as a record. -/
def Rule.toJson (r : Rule) : Json :=
  .object [("id", .text r.code), ("description", .text r.description), ("example", .text r.sample),
    ("severity", .text r.severity.key), ("category", .text r.category.key)]

/-- The catalog by the codes of the rules, as `rule_catalog` keeps it. -/
def Rule.catalogToJson : Json :=
  .object (catalog.map fun r => (r.code, r.toJson))

end Acceptance
