import Acceptance.Codeunit.Declaration
import Acceptance.Codeunit.Options

/-!
# Test codeunits

A test codeunit has one test procedure for each scenario of a plan, in order. It has the handlers
for messages and questions if one of its tests needs them.

Results:
* `length_tests_ofPlan`: there is one test for each scenario.
-/

namespace Acceptance

/-- A test procedure. -/
structure TestProcedure where
  name : String
  /-- The number of the scenario. -/
  id : UInt32
  title : String
  /-- Whether the handlers are attached to it. -/
  handled : Bool
  /-- Its local variables. -/
  declarations : List String
  given : List String
  when : List String
  expected : List String
  deriving Repr, DecidableEq

/-- The test procedure of a scenario: what `test_procedure` takes from it. -/
def TestProcedure.ofScenario (s : Scenario) : TestProcedure where
  name := String.ofList (Naming.procedureName s.id s.title.toList)
  id := s.id
  title := s.title
  handled := s.needsHandlers
  declarations := s.localDeclarations
  given := s.groupSteps .given
  when := s.groupSteps .when
  expected := s.groupSteps .expected

/-- Model of `DEFAULT_WORK_ITEM_NUMBER`: the number that stands for a work item without one. -/
def defaultWorkItemNumber : String := "000000"

/-- A test codeunit. -/
structure Codeunit where
  id : UInt32
  name : String
  workItemNumber : String
  workItem : String
  library : String
  tests : List TestProcedure
  deriving Repr, DecidableEq

namespace Codeunit

/-- The test codeunit of a plan: what `generate` takes from the plan and the options. -/
def ofPlan (o : Options) (p : Plan) : Codeunit where
  id := o.codeunitId
  name := o.nameFor p.metadata
  workItemNumber := p.metadata.workItemNumber?.getD defaultWorkItemNumber
  workItem := p.metadata.workItem
  library := o.libraryCodeunit
  tests := p.scenarios.map TestProcedure.ofScenario

/-- Whether the codeunit has handlers. -/
def hasHandlers (c : Codeunit) : Bool :=
  c.tests.any (·.handled)

end Codeunit

/-! ## First laws -/

@[simp] theorem Codeunit.length_tests_ofPlan (o : Options) (p : Plan) :
    (ofPlan o p).tests.length = p.scenarios.length := by
  simp [ofPlan]

end Acceptance
