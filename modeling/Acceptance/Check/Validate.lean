import Acceptance.Check.Comments
import Acceptance.Check.Library
import Acceptance.Check.Naming
import Acceptance.Check.ObjectName
import Acceptance.Check.ScenarioCount
import Acceptance.Check.Usage
import Acceptance.Check.VariableOrder

/-!
# Validation

Every category has one check. Validating a source runs them all on one analysis, in the order of the
categories, and records what each of them reports.

Results:
* `validate_get`: what validation records for a category is what its check reports.
-/

namespace Acceptance

namespace Analysis

/-- Model of `Analysis::run`: the issues of one category. -/
def issues (a : Analysis) : Category → List Issue
  | .naming => Check.naming a
  | .comments => Check.comments a
  | .permissions => Check.permissions a
  | .commit => Check.commit a
  | .objectLength => Check.objectLength a
  | .scenarioCount => Check.scenarioCount a
  | .library => Check.library a
  | .variableOrder => Check.variableOrder a

/-- Model of the loop of `validate_all`: the issues of all categories. -/
def results (a : Analysis) : Results :=
  Category.all.foldl (fun r category => r.insert category (a.issues category)) Results.empty

end Analysis

/-- Model of `check_naming` and its siblings: the issues that the check of one category reports on a
source. -/
def check (category : Category) (code : String) : List Issue :=
  (Analysis.ofString code).issues category

/-- Model of `validate_all`: the issues that all checks report on a source. -/
def validate (code : String) : Results :=
  (Analysis.ofString code).results

/-! ## First laws -/

theorem Analysis.entries_results (a : Analysis) :
    a.results.entries = Category.all.map fun category => (category, a.issues category) := rfl

theorem validate_get (code : String) (category : Category) :
    (validate code).get category = check category code := by
  cases category <;> rfl

end Acceptance
