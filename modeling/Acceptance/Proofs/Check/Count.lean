import Mathlib.Data.List.Basic
import Acceptance.Check.ScenarioCount
import Acceptance.Proofs.Check.Test

/-!
# The scenario tags of generated code

Only the scenario comments of its tests have numbered tags: no title, step or work item can add one
to generated code or take one away. So their numbers are those of the tests, and the only issue
about them is a gap.

Main results:

* `scenarioTag?_scenario`: the tag of a scenario comment has the number of the scenario.
* `Codeunit.contents_lines`: all comments of a codeunit.
* `Codeunit.scenarioCount_code`: the issues about number and numbering of scenarios.
-/

namespace Acceptance

open Text Source CodeLine Check

/-! ## Tags of comments -/

theorem word64?_toDigits (id : UInt32) : word64? (Nat.toDigits 10 id.toNat) = some id.toNat := by
  have hlt : id.toNat < UInt64.size := Nat.lt_trans id.toNat_lt (by decide)
  rw [word64?, decimal?_toDigits]
  exact if_pos hlt

theorem scenarioTag?_scenario (id : UInt32) (title : String) :
    scenarioTag? (trimEnd (scenarioRemark id title).toList) =
      some (Nat.toDigits 10 id.toNat) := by
  have hne : Nat.toDigits 10 id.toNat ≠ [] := Nat.toDigits_ne_nil
  have hdigit : ∀ c ∈ Nat.toDigits 10 id.toNat, isDigit c = true := fun c hc =>
    isDigit_of_isAsciiDigit (isAsciiDigit_of_isDigit (isDigit_of_mem_toDigits hc))
  have hafter (s : List Char) :
      after? "[SCENARIO".toList ("[SCENARIO ".toList ++ s) = some (' ' :: s) := rfl
  have hblanks (s : List Char) :
      blanks? (' ' :: (Nat.toDigits 10 id.toNat ++ s)) = some (Nat.toDigits 10 id.toNat ++ s) := by
    obtain ⟨d, ds, hd⟩ := List.exists_cons_of_ne_nil hne
    have hp : isPlainNameChar d = true := isPlain_toDigits id.toNat d (hd ▸ List.mem_cons_self)
    rw [hd]
    exact blanks?_space (not_isBlank_of_plain hp) _
  have hrun (s : List Char) :
      run? isDigit (Nat.toDigits 10 id.toNat ++ ']' :: s) =
        some (Nat.toDigits 10 id.toNat, ']' :: s) := by
    refine run?_append hne hdigit ?_
    rintro c ⟨⟩
    decide
  rw [trimEnd_scenarioRemark, scenarioTag?, hafter]
  simp only [Option.bind_eq_bind, Option.bind_some, hblanks, hrun]
  rfl

/-- Only a content that starts with the tag of a scenario can have a numbered one. -/
theorem scenarioTag?_eq_none {content : List Char}
    (h : "[SCENARIO".toList.isPrefixOf content = false) : scenarioTag? content = none := by
  rw [scenarioTag?, after?, h]
  rfl

theorem scenarioTag?_of_hasTag {g : Group} {content : List Char} (h : HasTag (some g) content) :
    scenarioTag? content = none :=
  scenarioTag?_eq_none (h none)

theorem scenarioTag?_feature (c : Codeunit) :
    scenarioTag? (trimEnd c.featureRemark.toList) = none := by
  have hs : "[FEATURE] User Story ".toList = "[FEATURE".toList ++ ']' :: " User Story ".toList := by
    decide
  rw [Codeunit.toList_featureRemark, hs, List.append_assoc, List.cons_append,
    trimEnd_append_cons (by decide)]
  exact scenarioTag?_eq_none rfl

/-- Whether numbers are those from 1 on, in some order. -/
def runsFromOne (ids : List ℕ) : Bool :=
  decide (ids.mergeSort (fun a b => decide (a ≤ b)) = List.range' 1 ids.length)

/-- The numbers that are compared with those expected are the numbers of the tests in order. -/
theorem map_number_numbered {tags : List ScenarioTag} {ids : List ℕ}
    (h : tags.map ScenarioTag.number = ids.map some) :
    (Check.numbered tags).map Numbered.number = ids.mergeSort fun a b => decide (a ≤ b) := by
  have unsorted : (tags.filterMap fun t => t.number.map fun n => (⟨n, t.line⟩ : Numbered)).map
      Numbered.number = ids := by
    have hid : (tags.map ScenarioTag.number).filterMap id = ids := by
      rw [h, List.filterMap_map]
      exact List.filterMap_some
    rw [← hid, List.map_filterMap, List.filterMap_map]
    refine List.filterMap_congr fun t _ => ?_
    rw [Option.map_map]
    exact Option.map_id'
  rw [Check.numbered, ← unsorted]
  exact List.map_mergeSort fun _ _ _ _ => rfl

/-- The only numbered tag of a test is that of its scenario. -/
theorem TestProcedure.filterMap_scenarioTag? (t : TestProcedure) :
    (t.remarks.map fun content => trimEnd content.toList).filterMap scenarioTag? =
      [Nat.toDigits 10 t.id.toNat] := by
  have steps (g : Group) (steps : List String) :
      ((steps.map (stepRemark g)).map fun content => trimEnd content.toList).filterMap
        scenarioTag? = [] := by
    induction steps with
    | nil => rfl
    | cons step steps ih =>
      rw [List.map_cons, List.map_cons,
        List.filterMap_cons_none (scenarioTag?_of_hasTag (hasTag_step g step)), ih]
  unfold remarks
  rw [List.map_cons, List.filterMap_cons_some (scenarioTag?_scenario t.id t.title), List.map_append,
    List.map_append, List.filterMap_append, List.filterMap_append, steps, steps, List.map_cons,
    List.filterMap_cons_none (scenarioTag?_of_hasTag hasTag_when), List.map_append,
    List.filterMap_append, steps, List.map_singleton,
    List.filterMap_cons_none (scenarioTag?_of_hasTag hasTag_then)]
  rfl

/-! ## All comments of a codeunit -/

theorem TestProcedure.contents_lines {t : TestProcedure} (h : t.IsSound) :
    contents (raws t.lines) = t.remarks.map fun content => trimEnd content.toList := by
  have lead : contents (raws t.lead) = [] := by
    have fixed : contents (raws [⟨1, "[Test]"⟩]) = [] ∧
        contents (raws [⟨1, "[Test]"⟩, ⟨1, handlerAttribute⟩]) = [] := by
      decide
    unfold TestProcedure.lead
    cases t.handled with
    | false => exact fixed.1
    | true => exact fixed.2
  have blank : contents (raws [.blank]) = [] := by decide
  have text := contents_text h
  rw [TestProcedure.text, lines_routineText] at text
  rw [lines_eq, raws_append, raws_append, contents_append, contents_append, lead, blank, text,
    List.nil_append, List.append_nil]

namespace Codeunit

variable {c : Codeunit}

theorem contents_header (h : c.IsSound) :
    contents (raws c.header) = [trimEnd c.featureRemark.toList] := by
  have object : contents [objectLine c.id.toNat c.name.toList] = [] := by
    rw [contents, List.flatMap_singleton, commentTexts_bare (isBare_objectLine h.name _)]
    rfl
  have fixed : contents (raws [⟨0, "\x7b"⟩, ⟨1, "Subtype = Test;"⟩, .blank]) = [] ∧
      contents (raws [.blank]) = [] := by
    decide
  have hl : raws c.header = raws c.preface ++ c.onRunText.lines ++ raws [.blank] := by
    rw [onRunText, lines_routineText, ← raws_append, ← raws_append]
    rfl
  rw [hl, contents_append, contents_append, contents_onRun h, fixed.2, raw_preface h,
    ← List.singleton_append, contents_append, object, fixed.1]
  rfl

theorem contents_globals (h : c.IsSound) : contents (raws c.globals) = [] := by
  have library : contents [libraryLine c.library.toList] = [] := by
    have hp := (isPlain_of_isIdentifier h.library).1
    rw [contents, List.flatMap_singleton, commentTexts_bare (isBare_libraryLine hp)]
    rfl
  have opener : contents (raws [⟨1, "var"⟩]) = [] := by decide
  have fixed : contents (raws [⟨2, "LibraryAssert: Codeunit \"Library Assert\";"⟩,
      ⟨2, "LibraryVariableStorage: Codeunit \"Library - Variable Storage\";"⟩,
      ⟨2, "LibraryLowerPermissions: Codeunit \"Library - Lower Permissions\";"⟩,
      ⟨2, "IsInitialized: Boolean;"⟩, .blank]) = [] :=
    contents_fixed ⟨_, by repeat' constructor, by decide +kernel⟩
  have hl : raws c.globals = raws [⟨1, "var"⟩] ++ ([libraryLine c.library.toList] ++
      raws [⟨2, "LibraryAssert: Codeunit \"Library Assert\";"⟩,
        ⟨2, "LibraryVariableStorage: Codeunit \"Library - Variable Storage\";"⟩,
        ⟨2, "LibraryLowerPermissions: Codeunit \"Library - Lower Permissions\";"⟩,
        ⟨2, "IsInitialized: Boolean;"⟩, .blank]) := by
    rw [← raw_libraryLine]
    rfl
  rw [hl, contents_append, contents_append, opener, library, fixed]
  rfl

theorem contents_tests {tests : List TestProcedure} (h : ∀ t ∈ tests, t.IsSound) :
    contents (raws (tests.flatMap (·.lines))) =
      tests.flatMap fun t => t.remarks.map fun content => trimEnd content.toList := by
  induction tests with
  | nil => rfl
  | cons t tests ih =>
    rw [List.flatMap_cons, raws_append, contents_append, List.flatMap_cons,
      TestProcedure.contents_lines (h t List.mem_cons_self),
      ih fun u hu => h u (List.mem_cons_of_mem _ hu)]

/-- The comments of a codeunit are that of the trigger and those of the tests. -/
theorem contents_lines (h : c.IsSound) :
    contents (raws c.lines) = trimEnd c.featureRemark.toList ::
      c.tests.flatMap fun t => t.remarks.map fun content => trimEnd content.toList := by
  have prepared : contents (raws setup) = [] :=
    contents_fixed ⟨_, by repeat' constructor, by decide +kernel⟩
  have handled : contents (raws handlers) = [] :=
    contents_fixed ⟨_, by repeat' constructor, by decide +kernel⟩
  have closer : contents (raws [⟨0, "\x7d"⟩]) = [] := by decide
  have behind : contents (raws (if c.hasHandlers then handlers else [])) = [] := by
    cases c.hasHandlers with
    | false => rfl
    | true => exact handled
  unfold lines
  simp only [raws_append, contents_append, contents_header h, contents_globals h, prepared, behind,
    closer, contents_tests h.tests, List.append_nil]
  rfl

/-! ## The check -/

theorem map_content_comments (h : c.IsSound) :
    (Analysis.ofString c.code).source.comments.map Comment.content = contents (raws c.lines) := by
  rw [ofString_code, Analysis.source_ofChars, comments_join (isPlainLine_lines h),
    contents_numbered]

/-- The numbered tags of a codeunit have the numbers of its tests, in order. -/
theorem map_number_scenarioTags (h : c.IsSound) :
    (scenarioTags (Analysis.ofString c.code).source.comments).map ScenarioTag.number =
      c.tests.map fun t => some t.id.toNat := by
  have key (comments : List Comment) : (scenarioTags comments).map ScenarioTag.number =
      ((comments.map Comment.content).filterMap scenarioTag?).map word64? := by
    rw [scenarioTags, List.map_filterMap, List.filterMap_map, List.map_filterMap]
    refine List.filterMap_congr fun c _ => ?_
    rw [Option.map_map]
    rfl
  have tests : (c.tests.flatMap fun t =>
      t.remarks.map fun content => trimEnd content.toList).filterMap scenarioTag? =
        c.tests.map fun t => Nat.toDigits 10 t.id.toNat := by
    rw [List.filterMap_flatMap]
    simp only [TestProcedure.filterMap_scenarioTag?]
    exact List.flatMap_pure_eq_map _ _
  rw [key, map_content_comments h, contents_lines h,
    List.filterMap_cons_none (scenarioTag?_feature c), tests, List.map_map]
  exact List.map_congr_left fun t _ => word64?_toDigits t.id

/-- A test has one scenario tag, so their numbers agree, and the numbers must run from 1. -/
theorem scenarioCount_code (h : c.IsSound) :
    ∃ gap, gap.rule = Rule.scenarioNumberingGap ∧ gap.severity = .warning ∧
      scenarioCount (Analysis.ofString c.code) =
        if runsFromOne (c.tests.map (·.id.toNat)) then [] else [gap] := by
  have htags := map_number_scenarioTags h
  generalize hids : c.tests.map (·.id.toNat) = ids
  have hsome : c.tests.map (fun t => some t.id.toNat) = ids.map some := by
    rw [← hids, List.map_map]
    rfl
  have hnumbers := map_number_numbered (htags.trans hsome)
  generalize hcomments : scenarioTags (Analysis.ofString c.code).source.comments = tags at *
  have hlength : (Analysis.ofString c.code).tests.length = tags.length := by
    have htests : (TestProcedure.shownFrom (linesBeforeTests + 1) c.tests).length =
        c.tests.length := TestProcedure.length_shownFrom _ _
    have := congrArg List.length htags
    rw [List.length_map, List.length_map] at this
    rw [tests_code h, List.length_map, htests, this]
  have hsorted : (Check.numbered tags).length = ids.length := by
    have := congrArg List.length hnumbers
    rwa [List.length_map, List.length_mergeSort] at this
  have hgap : firstGap? 1 (Check.numbered tags) = none ↔ runsFromOne ids = true := by
    rw [firstGap?_eq_none_iff, hnumbers, hsorted, runsFromOne, decide_eq_true_iff]
  unfold scenarioCount
  simp only [hcomments, hlength, if_pos, List.nil_append]
  cases hf : firstGap? 1 (Check.numbered tags) with
  | none =>
    refine ⟨Issue.warning Rule.scenarioNumberingGap "" 1, rfl, rfl, ?_⟩
    rw [if_pos (hgap.1 hf)]
    rfl
  | some gap =>
    refine ⟨gapIssue gap, rfl, rfl, ?_⟩
    rw [if_neg fun hs => absurd (hgap.2 hs) (by rw [hf]; exact Option.some_ne_none gap)]
    rfl

end Codeunit

end Acceptance
