import Acceptance.Check.Validate
import Acceptance.Codeunit.Layout
import Acceptance.Config
import Acceptance.Plan.Read

/-!
# Working under a configuration

Under a configuration a plan is generated if the options are accepted, and a source is judged
strictly or not.

Results:
* `generate_eq_ok_iff`: generation succeeds exactly under options that are accepted.
-/

namespace Acceptance

/-- Model of `GeneratedCodeunit`: a generated source and the report on it. -/
structure Generated where
  code : String
  report : Report
  deriving Repr, DecidableEq

namespace Config

/-- Model of `AtddToolkit::generate`: the source of the test codeunit of a plan. -/
def generate (c : Config) (p : Plan) : Except OptionsError String :=
  match c.generation.validate with
  | .ok () => .ok (Acceptance.generate c.generation p)
  | .error cause => .error cause

/-- Model of `AtddToolkit::validate`: the report on a source. -/
def validate (c : Config) (code : String) : Report :=
  Report.of (Acceptance.validate code) c.failOnWarnings

/-- Model of `generate_checked`: the source that is generated for the plan in a text, and the report
on it. -/
def generateChecked (c : Config) (text : String) : Except OptionsError Generated :=
  match c.generate (Plan.read text) with
  | .ok code => .ok ⟨code, c.validate code⟩
  | .error cause => .error cause

end Config

/-! ## First laws -/

theorem Config.generate_eq_ok_iff {c : Config} {p : Plan} {code : String} :
    c.generate p = .ok code ↔
      c.generation.validate = .ok () ∧ Acceptance.generate c.generation p = code := by
  unfold generate
  split
  · next h => simp [h]
  · next h => simp [h]

end Acceptance
