import Mathlib.Data.List.Basic
import Acceptance.Check.Validate
import Acceptance.Proofs.Check.Count
import Acceptance.Proofs.Check.Masked
import Acceptance.Proofs.Check.Variable

/-!
# Validation of generated code

What the checks report on generated code depends on the plan in three ways only: a number above 9999
does not fit the prefix of a test name, a scenario without a GIVEN step has no GIVEN comment, and
numbers that do not run from 1 leave a gap. All other texts of a plan are of no account.

Main results:

* `Codeunit.library_code`: the procedures that prepare a test hold no comments.
* `naming_ofPlan`, `comments_ofPlan`: the issues about the tests of a plan.
* `entries_generate`: all issues that validation reports on the code of a plan.
-/

namespace Acceptance

open Text Source CodeLine Check

/-! ## The issues about a scenario -/

namespace Scenario

/-- The scenarios with the lines on which their tests start, if the first starts on the given
line. -/
def placedFrom (line : ℕ) : List Scenario → List (Scenario × ℕ)
  | [] => []
  | s :: rest => (s, line) :: placedFrom (line + (TestProcedure.ofScenario s).lines.length) rest

/-- The name of the test of a scenario. -/
def testName (s : Scenario) : String := String.ofList (Naming.procedureName s.id s.title.toList)

/-- The issues about the name of the test of a scenario: its number may have too many digits. -/
def namingIssues (p : Scenario × ℕ) : List Issue :=
  if p.1.id ≤ maxNumber then [] else [prefixIssue p.1.testName p.2]

/-- The issues about the comments of the test of a scenario: nothing may be given. -/
def commentIssues (p : Scenario × ℕ) : List Issue :=
  if p.1.groupSteps .given = [] then [missingGivenIssue p.1.testName p.2] else []

theorem map_fst_placedFrom (line : ℕ) (scenarios : List Scenario) :
    (placedFrom line scenarios).map Prod.fst = scenarios := by
  induction scenarios generalizing line with
  | nil => rfl
  | cons s rest ih => rw [placedFrom, List.map_cons, ih]

theorem shownFrom_ofScenario (line : ℕ) (scenarios : List Scenario) :
    TestProcedure.shownFrom line (scenarios.map TestProcedure.ofScenario) =
      (placedFrom line scenarios).map fun p => (TestProcedure.ofScenario p.1).shown p.2 := by
  induction scenarios generalizing line with
  | nil => rfl
  | cons s rest ih =>
    rw [List.map_cons, TestProcedure.shownFrom, ih, placedFrom, List.map_cons, raws,
      List.length_map]

end Scenario

/-! ## The checks of a plan -/

section ofPlan

variable {o : Options} {p : Plan}

/-- The tests in the code of a plan, each with its lines. -/
theorem tests_ofPlan (h : (Codeunit.ofPlan o p).IsSound) :
    (Analysis.ofString (generate o p)).tests =
      (Scenario.placedFrom (Codeunit.linesBeforeTests + 1) p.scenarios).map fun q =>
        ((TestProcedure.ofScenario q.1).shown q.2).1 := by
  have hs : (Codeunit.ofPlan o p).tests = p.scenarios.map TestProcedure.ofScenario := rfl
  rw [generate, Codeunit.tests_code h, hs, Scenario.shownFrom_ofScenario, List.map_map]
  rfl

theorem naming_ofPlan (h : (Codeunit.ofPlan o p).IsSound) :
    naming (Analysis.ofString (generate o p)) =
      (Scenario.placedFrom (Codeunit.linesBeforeTests + 1) p.scenarios).flatMap
        Scenario.namingIssues := by
  rw [naming, tests_ofPlan h, List.flatMap_map]
  refine List.flatMap_congr fun q _ => ?_
  have hn : ((TestProcedure.ofScenario q.1).shown q.2).1.name =
      Naming.procedureName q.1.id q.1.title.toList := String.toList_ofList
  rw [testNaming_procedureName hn, hn]
  rfl

theorem comments_ofPlan (h : (Codeunit.ofPlan o p).IsSound) :
    Check.comments (Analysis.ofString (generate o p)) =
      (Scenario.placedFrom (Codeunit.linesBeforeTests + 1) p.scenarios).flatMap
        Scenario.commentIssues := by
  rw [Check.comments, tests_ofPlan h, List.flatMap_map]
  refine List.flatMap_congr fun q hq => ?_
  have hs : q.1 ∈ p.scenarios := by
    rw [← Scenario.map_fst_placedFrom (Codeunit.linesBeforeTests + 1) p.scenarios]
    exact List.mem_map_of_mem hq
  have ht : (TestProcedure.ofScenario q.1).IsSound := h.tests _ (List.mem_map_of_mem hs)
  have hm : (TestProcedure.ofScenario q.1).shown q.2 ∈ (Codeunit.ofPlan o p).shown := by
    refine Codeunit.mem_shown_of_mem_shownFrom ?_
    show _ ∈ TestProcedure.shownFrom _ (p.scenarios.map TestProcedure.ofScenario)
    rw [Scenario.shownFrom_ofScenario]
    exact List.mem_map_of_mem hq
  have hc : ((Analysis.ofString (generate o p)).commentsOf
      ((TestProcedure.ofScenario q.1).shown q.2).1).map Comment.content =
        (TestProcedure.ofScenario q.1).remarks.map fun content => trimEnd content.toList := by
    rw [generate, Codeunit.commentsOf_code h hm, ← TestProcedure.contents_text ht]
    exact contents_numbered _ _
  have hn : ((TestProcedure.ofScenario q.1).shown q.2).1.name =
      Naming.procedureName q.1.id q.1.title.toList := String.toList_ofList
  rw [testComments_eq hc, hn]
  rfl

end ofPlan

namespace Codeunit

variable {c : Codeunit}

/-- Of the routines of a codeunit only the trigger and the tests have comments. -/
theorem comments_eq_nil_of_helper {w : Outline}
    (hw : w ∈ [triggerOutline c.featureRemark, helperOutline "Initialize" [],
      helperOutline "SetTestPermissions" []] ++ c.tests.map TestProcedure.outline ++
      if c.hasHandlers then handlerOutlines else [])
    (hk : w.kind = .procedure) (ht : w.isTest = false) : w.comments = [] := by
  rcases List.mem_append.1 hw with hw | hw
  · rcases List.mem_append.1 hw with hw | hw
    · simp only [List.mem_cons, List.not_mem_nil, or_false] at hw
      rcases hw with rfl | rfl | rfl
      · cases hk
      · rfl
      · rfl
    · obtain ⟨t, -, rfl⟩ := List.mem_map.1 hw
      cases ht
  · cases hc : c.hasHandlers with
    | false =>
      rw [hc] at hw
      cases hw
    | true =>
      rw [hc, if_pos rfl] at hw
      simp only [handlerOutlines, List.mem_cons, List.not_mem_nil, or_false] at hw
      rcases hw with rfl | rfl
      · rfl
      · rfl

theorem library_code (h : c.IsSound) : Check.library (Analysis.ofString c.code) = [] := by
  have ho := outlines_code h
  generalize Analysis.ofString c.code = a at *
  have helper : ∀ r ∈ a.routines, isHelper r = true → a.commentsOf r = [] := by
    intro r hr hh
    rw [isHelper, Bool.and_eq_true, beq_iff_eq, Bool.not_eq_true'] at hh
    have hm : a.outline r ∈ a.routines.map a.outline := List.mem_map_of_mem hr
    rw [ho] at hm
    exact List.map_eq_nil_iff.1 (comments_eq_nil_of_helper hm hh.1 hh.2)
  unfold Check.library
  split_ifs
  · refine List.map_eq_nil_iff.2 (List.filter_eq_nil_iff.2 fun r hr => ?_)
    rw [Bool.and_eq_true, not_and]
    intro hh
    rw [helper r hr hh]
    exact Bool.false_ne_true
  · rfl

end Codeunit

/-! ## The whole validation -/

theorem Results.passed_iff (r : Results) :
    r.summary.passed = true ↔ ∀ i ∈ r.issues, i.isError = false := by
  rw [Results.summary]
  simp only [beq_iff_eq, List.countP_eq_zero, Bool.not_eq_true]

/-- Generated code passes exactly if no scenario has an issue. -/
theorem passed_of_entries {r : Results} {line : ℕ} {scenarios : List Scenario} {gaps : List Issue}
    (hg : ∀ gap ∈ gaps, gap.severity = .warning)
    (h : r.issues = (Scenario.placedFrom line scenarios).flatMap Scenario.namingIssues ++
      (Scenario.placedFrom line scenarios).flatMap Scenario.commentIssues ++ gaps) :
    r.summary.passed = true ↔
      ∀ s ∈ scenarios, s.id ≤ maxNumber ∧ s.groupSteps .given ≠ [] := by
  rw [Results.passed_iff, h]
  constructor
  · intro hp s hs
    rw [← Scenario.map_fst_placedFrom line scenarios] at hs
    obtain ⟨q, hq, rfl⟩ := List.mem_map.1 hs
    constructor
    · by_contra hid
      have hi : prefixIssue q.1.testName q.2 ∈ Scenario.namingIssues q := by
        rw [Scenario.namingIssues, if_neg hid]
        exact List.mem_singleton_self _
      have := hp _ (List.mem_append_left _ (List.mem_append_left _ (List.mem_flatMap.2 ⟨q, hq, hi⟩)))
      cases this
    · intro hgiven
      have hi : missingGivenIssue q.1.testName q.2 ∈ Scenario.commentIssues q := by
        rw [Scenario.commentIssues, if_pos hgiven]
        exact List.mem_singleton_self _
      have := hp _ (List.mem_append_left _ (List.mem_append_right _ (List.mem_flatMap.2 ⟨q, hq, hi⟩)))
      cases this
  · intro hs i hi
    have hq : ∀ q ∈ Scenario.placedFrom line scenarios,
        q.1.id ≤ maxNumber ∧ q.1.groupSteps .given ≠ [] := by
      intro q hq
      refine hs q.1 ?_
      rw [← Scenario.map_fst_placedFrom line scenarios]
      exact List.mem_map_of_mem hq
    have hnaming : (Scenario.placedFrom line scenarios).flatMap Scenario.namingIssues = [] :=
      List.flatMap_eq_nil_iff.2 fun q hm => if_pos (hq q hm).1
    have hcomments : (Scenario.placedFrom line scenarios).flatMap Scenario.commentIssues = [] :=
      List.flatMap_eq_nil_iff.2 fun q hm => if_neg (hq q hm).2
    rw [hnaming, hcomments, List.nil_append, List.nil_append] at hi
    rw [Issue.isError, hg i hi]
    rfl

/-- Whatever text a plan is read from, validation of its code reports an error about the name of each
test whose number is above 9999, an error about each test of a scenario without a GIVEN step, and a
warning if the numbers are not those from 1 on; and nothing else. So the code passes exactly if each
number has four digits and something is given in each scenario. -/
theorem entries_generate {o : Options} (ho : o.validate = .ok ()) (text : String) :
    let p := Plan.read text
    let placed := Scenario.placedFrom (Codeunit.linesBeforeTests + 1) p.scenarios
    let ids := p.scenarios.map (·.id.toNat)
    let r := validate (generate o p)
    (∃ gap, gap.rule = Rule.scenarioNumberingGap ∧ gap.severity = .warning ∧
      r.entries =
        [(.naming, placed.flatMap Scenario.namingIssues),
          (.comments, placed.flatMap Scenario.commentIssues),
          (.permissions, []), (.commit, []), (.objectLength, []),
          (.scenarioCount, if runsFromOne ids then [] else [gap]),
          (.library, []), (.variableOrder, [])]) ∧
      (r.summary.passed = true ↔
        ∀ s ∈ p.scenarios, s.id ≤ maxNumber ∧ s.groupSteps .given ≠ []) := by
  intro p placed ids r
  have h : (Codeunit.ofPlan o p).IsSound :=
    Codeunit.isSound_ofPlan ho (Plan.isSingleLine_read text)
  obtain ⟨gap, hrule, hseverity, hcount⟩ := Codeunit.scenarioCount_code h
  have hids : (Codeunit.ofPlan o p).tests.map (·.id.toNat) = ids := List.map_map
  rw [hids] at hcount
  have entries : r.entries =
      [(.naming, placed.flatMap Scenario.namingIssues),
        (.comments, placed.flatMap Scenario.commentIssues),
        (.permissions, []), (.commit, []), (.objectLength, []),
        (.scenarioCount, if runsFromOne ids then [] else [gap]),
        (.library, []), (.variableOrder, [])] := by
    show (Analysis.results _).entries = _
    rw [Analysis.entries_results]
    simp only [Category.all, List.map_cons, List.map_nil, Analysis.issues]
    rw [naming_ofPlan h, comments_ofPlan h]
    unfold generate
    rw [Codeunit.permissions_code h, Codeunit.commit_code h, Codeunit.objectLength_code h, hcount,
      Codeunit.library_code h, Codeunit.variableOrder_code h]
  refine ⟨⟨gap, hrule, hseverity, entries⟩, ?_⟩
  have gaps : ∀ g ∈ if runsFromOne ids then [] else [gap], g.severity = .warning := by
    intro g hg
    split_ifs at hg
    · cases hg
    · exact List.mem_singleton.1 hg ▸ hseverity
  have issues : r.issues = placed.flatMap Scenario.namingIssues ++
      placed.flatMap Scenario.commentIssues ++ if runsFromOne ids then [] else [gap] := by
    rw [Results.issues, entries]
    simp
  exact passed_of_entries gaps issues

/-- A plan whose texts look like code. -/
def codeLikeText : String :=
  "### Scenario 1: begin 'x\n**Given** // Commit();\n**When** procedure X()\n**Then** end; */\n"

/-- The code of a plan passes although its texts look like code. -/
theorem passed_generate_codeLikeText :
    ({} : Options).validate = .ok () ∧
      (Plan.read codeLikeText).scenarios.map (·.given) = [["// Commit();"]] ∧
      (validate (generate {} (Plan.read codeLikeText))).summary.passed = true :=
  ⟨Options.validate_default, by decide,
    (entries_generate Options.validate_default codeLikeText).2.2 (by decide)⟩

end Acceptance
