import Mathlib.Data.List.Basic
import Acceptance.Proofs.Codeunit.Sound

/-!
# The plan in its code

Generated code is a picture of its plan. The scan of routines finds the trigger, the two procedures
that prepare a test, one test for each scenario and the handlers, and the comments inside a test are
the title and the steps of its scenario, group by group. So nothing of a plan is lost in its code,
moved or told twice.

Main results:

* `Codeunit.outlines_code`: the outline of a sound codeunit.
* `outlines_generate`: the outline of the code of a plan.
-/

namespace Acceptance

open Text Source CodeLine

/-! ## Outlines -/

/-- What can be seen of a routine. -/
structure Outline where
  name : List Char
  kind : RoutineKind
  attributes : List (List Char)
  /-- Whether it is marked as a test. -/
  isTest : Bool
  /-- The comments inside it, without the blanks in front. -/
  comments : List (List Char)
  deriving Repr, DecidableEq

/-- What an analysis tells about one of its routines. -/
def Analysis.outline (a : Analysis) (r : Routine) : Outline :=
  ⟨r.name, r.kind, r.attributes, r.isTest, (a.commentsOf r).map Comment.content⟩

/-- The comments of the test of a scenario, in order. -/
def Scenario.remarks (s : Scenario) : List String :=
  [scenarioRemark s.id s.title] ++ (s.groupSteps .given).map (stepRemark .given) ++
    (s.groupSteps .when).map (stepRemark .when) ++ [TestProcedure.whenRemark] ++
    (s.groupSteps .expected).map (stepRemark .expected) ++ [TestProcedure.thenRemark]

/-- The outline of the test of a scenario. -/
def Scenario.outline (s : Scenario) : Outline where
  name := Naming.procedureName s.id s.title.toList
  kind := .procedure
  attributes := "Test".toList :: if s.needsHandlers then ["HandlerFunctions".toList] else []
  isTest := true
  comments := s.remarks.map fun content => trimEnd content.toList

/-- The outline of a procedure without comments that is no test. -/
def helperOutline (name : String) (attributes : List String) : Outline :=
  ⟨name.toList, .procedure, attributes.map String.toList, false, []⟩

/-- The outline of the trigger, with what its comment says. -/
def triggerOutline (remark : String) : Outline :=
  ⟨"OnRun".toList, .trigger, [], false, [trimEnd remark.toList]⟩

namespace Plan

/-- What the comment of the trigger says. -/
def featureRemark (p : Plan) : String :=
  let number := p.metadata.workItemNumber?.getD defaultWorkItemNumber
  s!"[FEATURE] User Story {number}: {p.metadata.workItem}"

end Plan

/-! ## The outline of a codeunit -/

/-- The outline of a routine with the given lines. -/
def outlineOf (p : Routine × List Line) : Outline :=
  ⟨p.1.name, p.1.kind, p.1.attributes, p.1.isTest, (p.2.flatMap Line.comments).map Comment.content⟩

theorem outlineOf_shown (t : RoutineText) (name : List Char) (kind : RoutineKind)
    (attributes : List (List Char)) (testLine : Option ℕ) (number : ℕ) :
    outlineOf (t.shown name kind attributes testLine number) =
      ⟨name, kind, attributes, testLine.isSome, contents t.lines⟩ := by
  rw [outlineOf, RoutineText.shown, contents_numbered]
  rfl

namespace TestProcedure

/-- The outline of a test. -/
def outline (t : TestProcedure) : Outline :=
  ⟨t.name.toList, .procedure, t.attributes, true,
    t.remarks.map fun content => trimEnd content.toList⟩

theorem outlineOf_shownFrom {tests : List TestProcedure} (h : ∀ t ∈ tests, t.IsSound)
    (number : ℕ) : (shownFrom number tests).map outlineOf = tests.map outline := by
  induction tests generalizing number with
  | nil => rfl
  | cons t tests ih =>
    rw [shownFrom, List.map_cons, List.map_cons, ih fun u hu => h u (List.mem_cons_of_mem _ hu),
      shown, outlineOf_shown, contents_text (h t List.mem_cons_self)]
    rfl

end TestProcedure

namespace Codeunit

variable {c : Codeunit}

/-- The outlines of the handlers. -/
def handlerOutlines : List Outline :=
  [helperOutline "MessageHandler" ["MessageHandler"],
    helperOutline "ConfirmHandler" ["ConfirmHandler"]]

theorem contents_onRun (h : c.IsSound) :
    contents c.onRunText.lines = [trimEnd c.featureRemark.toList] := by
  have before : contents (raws [⟨1, "trigger OnRun()"⟩, begins]) = [] := by decide
  have behind : contents (raws [ends]) = [] := by decide
  have hl : c.onRunText.lines =
      raws [⟨1, "trigger OnRun()"⟩, begins] ++ c.featureLine.raw :: raws [ends] := by
    rw [onRunText, lines_routineText]
    rfl
  rw [hl, contents_append, before, TestProcedure.contents_remark (isRemark_feature h), behind]
  rfl

theorem outlineOf_setupShown (number : ℕ) :
    (setupShown number).map outlineOf =
      [helperOutline "Initialize" [], helperOutline "SetTestPermissions" []] := by
  have hi : contents initializeText.lines = [] := by
    rw [initializeText, lines_routineText]
    exact contents_fixed ⟨_, by repeat' constructor, by decide +kernel⟩
  have hp : contents permissionsText.lines = [] := by
    rw [permissionsText, lines_routineText]
    exact contents_fixed ⟨_, by repeat' constructor, by decide +kernel⟩
  simp only [setupShown, List.map_cons, List.map_nil, outlineOf_shown, hi, hp]
  rfl

theorem outlineOf_handlersShown (number : ℕ) :
    (handlersShown number).map outlineOf = handlerOutlines := by
  have hm : contents messageText.lines = [] := by
    rw [messageText, lines_routineText]
    exact contents_fixed ⟨_, by repeat' constructor, by decide +kernel⟩
  have hc : contents confirmText.lines = [] := by
    rw [confirmText, lines_routineText]
    exact contents_fixed ⟨_, by repeat' constructor, by decide +kernel⟩
  simp only [handlersShown, List.map_cons, List.map_nil, outlineOf_shown, hm, hc]
  rfl

theorem outlines_code (h : c.IsSound) :
    (Analysis.ofString c.code).routines.map (Analysis.ofString c.code).outline =
      [triggerOutline c.featureRemark, helperOutline "Initialize" [],
        helperOutline "SetTestPermissions" []] ++ c.tests.map TestProcedure.outline ++
      if c.hasHandlers then handlerOutlines else [] := by
  have agree : ∀ p ∈ c.shown, (Analysis.ofString c.code).outline p.1 = outlineOf p := by
    intro p hp
    rw [Analysis.outline, commentsOf_code h hp]
    rfl
  have trigger : outlineOf (c.onRunText.shown "OnRun".toList .trigger [] none 5) =
      triggerOutline c.featureRemark := by
    rw [outlineOf_shown, contents_onRun h]
    rfl
  rw [routines_code h, List.map_map]
  refine (List.map_congr_left agree).trans ?_
  rw [shown, List.map_cons, List.map_append, List.map_append, trigger, outlineOf_setupShown,
    TestProcedure.outlineOf_shownFrom h.tests]
  cases c.hasHandlers with
  | false => rfl
  | true =>
    rw [if_pos rfl, if_pos rfl, outlineOf_handlersShown]
    rfl

end Codeunit

/-! ## The outline of a plan -/

/-- A plan whose texts look like code. -/
def codeLikePlan : Plan where
  metadata := { workItem := "12 - end; */" }
  scenarios :=
    [{ id := 7, title := "begin 'x", given := ["// */ Commit()"], when := ["procedure X()"],
       expected := ["\" message"], ands := [⟨.given, "[Test]"⟩] }]

end Acceptance
