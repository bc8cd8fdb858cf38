import Mathlib.Data.List.Flatten
import Mathlib.Data.List.Infix
import Mathlib.Data.List.Nodup
import Acceptance.Codeunit.Declaration
import Acceptance.Proofs.Text.Case

/-!
# Words in steps

The words that ask for variables and handlers are searched in the steps of a scenario with spaces
between them. The words hold no space, and a space ends the context that lower case depends on. So a
word is found exactly if it occurs in the lower case of one of the steps alone, and the order of the
steps makes no difference.

Main results:

* `lowercase_stepText`, `lowercase_fullText`: the lower case of all steps.
* `mentions_stepText_iff`, `mentions_fullText_iff`: a word is found in one of the steps.
* `localDeclarations_eq`: the variables that the steps ask for, one by one.
* `mentions_steps`: what a scenario asks for depends on single steps.
-/

namespace Acceptance

open Text

/-! ## Specification -/

/-- Whether a word occurs in the lower case of one of the steps. -/
def IsMentioned (steps : List String) (word : String) : Prop :=
  ∃ step ∈ steps, word.toList <:+: lowercase step.toList

instance (steps : List String) (word : String) : Decidable (IsMentioned steps word) :=
  inferInstanceAs (Decidable (∃ step ∈ steps, word.toList <:+: lowercase step.toList))

/-- Whether all occurrences of a word in the lower case of a text are occurrences in the lower case of
one of the steps. The text ends with the steps behind that one, each behind a space. -/
def IsWithinSteps (text : String) (steps : List String) (word : String) : Prop :=
  ∀ before after, lowercase text.toList = before ++ (word.toList ++ after) →
    ∃ earlier step later left right, steps = earlier ++ step :: later ∧
      lowercase step.toList = left ++ (word.toList ++ right) ∧
      after = right ++ later.flatMap fun step => ' ' :: lowercase step.toList

namespace Scenario

/-- The labelled steps of all groups. -/
def labelledSteps (s : Scenario) : List String := s.given ++ s.when ++ s.expected

/-- All steps, the AND steps last. -/
def allSteps (s : Scenario) : List String := s.labelledSteps ++ s.ands.map AndStep.text

/-- The rules of the table whose word occurs in a labelled step. -/
def askedRules (s : Scenario) : List DeclarationRule :=
  declarationRules.filter fun r => IsMentioned s.labelledSteps r.word

end Scenario

/-! ## Lower case of the steps -/

/-- The lower case of a step. -/
def lowerStep (step : String) : List Char := lowercase step.toList

/-- The lower case of steps with spaces between them, in front of more steps. Without steps there is an
empty text in their place. -/
def lowerSteps (steps more : List String) : List Char :=
  spaced (lowerStep (steps.headD "")) ((steps.tail ++ more).map lowerStep)

theorem toList_intercalate_cons (step : String) (steps : List String) :
    (" ".intercalate (step :: steps)).toList = spaced step.toList (steps.map String.toList) := by
  induction steps generalizing step with
  | nil => simp [spaced]
  | cons next steps ih =>
    rw [String.intercalate_cons_cons, String.toList_append, String.toList_append, ih, List.map_cons,
      spaced_cons, List.append_assoc]
    rfl

/-- The steps with spaces between them, and more steps behind. -/
theorem toList_foldl_intercalate (steps more : List String) :
    (more.foldl (fun text step => text ++ " " ++ step) (" ".intercalate steps)).toList =
      spaced (steps.headD "").toList ((steps.tail ++ more).map String.toList) := by
  have hfold (text : String) : (more.foldl (fun text step => text ++ " " ++ step) text).toList =
      text.toList ++ (more.map String.toList).flatMap fun step => ' ' :: step := by
    induction more generalizing text with
    | nil => rw [List.foldl_nil, List.map_nil, List.flatMap_nil, List.append_nil]
    | cons step more ih =>
      rw [List.foldl_cons, ih, String.toList_append, String.toList_append, List.map_cons,
        List.flatMap_cons, List.append_assoc, List.append_assoc]
      rfl
  rw [hfold]
  cases steps with
  | nil => rfl
  | cons step steps =>
    rw [toList_intercalate_cons, spaced, spaced, List.append_assoc, ← List.flatMap_append,
      ← List.map_append]
    rfl

namespace Scenario

theorem lowercase_stepText (s : Scenario) :
    lowercase s.stepText.toList = lowerSteps s.labelledSteps [] := by
  have h := toList_foldl_intercalate s.labelledSteps []
  rw [List.foldl_nil] at h
  rw [stepText, ← labelledSteps, h, lowercase_spaced, List.map_map]
  rfl

theorem lowercase_fullText (s : Scenario) :
    lowercase s.fullText.toList = lowerSteps s.labelledSteps (s.ands.map AndStep.text) := by
  have h := toList_foldl_intercalate s.labelledSteps (s.ands.map AndStep.text)
  rw [List.foldl_map] at h
  rw [fullText, stepText, ← labelledSteps, h, lowercase_spaced, List.map_map]
  rfl

end Scenario

/-! ## Occurrences -/

/-- A word without a space is found in one of the steps. -/
theorem exists_of_lowerSteps_eq {word : List Char} (hne : word ≠ []) (hword : ' ' ∉ word)
    {steps more : List String} {before after : List Char}
    (h : lowerSteps steps more = before ++ (word ++ after)) :
    ∃ earlier step later left right, steps ++ more = earlier ++ step :: later ∧
      lowerStep step = left ++ (word ++ right) ∧
      after = right ++ later.flatMap fun step => ' ' :: lowerStep step := by
  obtain ⟨front, text, back, left, right, hsplit, htext, hafter⟩ := exists_of_spaced_eq hne hword h
  have hsteps : ∃ earlier, (steps ++ more).map lowerStep = earlier ++ text :: back := by
    cases steps with
    | cons step steps => exact ⟨front, hsplit⟩
    | nil =>
      cases front with
      | cons first front => exact ⟨front, (List.cons.inj hsplit).2⟩
      | nil =>
        -- the empty text holds no word
        obtain ⟨rfl, -⟩ := List.cons.inj hsplit
        have hnil := (List.append_eq_nil_iff.1 htext.symm).2
        exact absurd (List.append_eq_nil_iff.1 hnil).1 hne
  obtain ⟨earlier, hmap⟩ := hsteps
  obtain ⟨earlier, rest, hall, rfl, hrest⟩ := List.map_eq_append_iff.1 hmap
  obtain ⟨step, later, rfl, rfl, rfl⟩ := List.map_eq_cons_iff.1 hrest
  exact ⟨earlier, step, later, left, right, hall, htext, by rw [hafter, List.flatMap_map]⟩

theorem infix_lowerSteps_iff {word : String} (hne : word.toList ≠ []) (hword : ' ' ∉ word.toList)
    {steps more : List String} :
    word.toList <:+: lowerSteps steps more ↔ IsMentioned (steps ++ more) word := by
  constructor
  · rintro ⟨before, after, h⟩
    rw [List.append_assoc] at h
    obtain ⟨earlier, step, later, left, right, hsplit, hstep, -⟩ :=
      exists_of_lowerSteps_eq hne hword h.symm
    refine ⟨step, hsplit ▸ List.mem_append_right _ List.mem_cons_self, left, right, ?_⟩
    rw [← lowerStep, hstep, List.append_assoc]
  · rintro ⟨step, hstep, h⟩
    refine infix_spaced_of_mem ?_ h
    cases steps with
    | nil => exact List.mem_cons_of_mem _ (List.mem_map_of_mem hstep)
    | cons first steps => exact List.mem_map_of_mem (f := lowerStep) hstep

theorem isMentioned_congr {steps others : List String} (h : steps.Perm others) (word : String) :
    IsMentioned steps word ↔ IsMentioned others word :=
  exists_congr fun _ => and_congr_left' h.mem_iff

/-! ## A scenario -/

theorem word_of_mem_declarationRules : ∀ r ∈ declarationRules,
    r.word.toList ≠ [] ∧ ' ' ∉ r.word.toList := by
  decide

theorem word_of_mem_handlerWords : ∀ word ∈ handlerWords, word.toList ≠ [] ∧ ' ' ∉ word.toList := by
  decide

namespace Scenario

variable (s : Scenario)

theorem mentions_stepText_iff {word : String} (hne : word.toList ≠ []) (hword : ' ' ∉ word.toList) :
    mentions s.stepText word = true ↔ IsMentioned s.labelledSteps word := by
  rw [mentions, occursIn_eq_true_iff, lowercase_stepText, infix_lowerSteps_iff hne hword,
    List.append_nil]

theorem mentions_fullText_iff {word : String} (hne : word.toList ≠ []) (hword : ' ' ∉ word.toList) :
    mentions s.fullText word = true ↔ IsMentioned s.allSteps word := by
  rw [mentions, occursIn_eq_true_iff, lowercase_fullText, infix_lowerSteps_iff hne hword, allSteps]

theorem isWithinSteps_stepText {word : String} (hne : word.toList ≠ [])
    (hword : ' ' ∉ word.toList) : IsWithinSteps s.stepText s.labelledSteps word := by
  intro before after h
  rw [lowercase_stepText] at h
  have hoccurs := exists_of_lowerSteps_eq hne hword h
  rwa [List.append_nil] at hoccurs

theorem isWithinSteps_fullText {word : String} (hne : word.toList ≠ [])
    (hword : ' ' ∉ word.toList) : IsWithinSteps s.fullText s.allSteps word := by
  intro before after h
  rw [lowercase_fullText] at h
  exact exists_of_lowerSteps_eq hne hword h

theorem needsHandlers_iff :
    s.needsHandlers = true ↔ ∃ word ∈ handlerWords, IsMentioned s.allSteps word := by
  rw [needsHandlers, List.any_eq_true]
  refine exists_congr fun word => and_congr_right fun hmem => ?_
  obtain ⟨hne, hword⟩ := word_of_mem_handlerWords word hmem
  exact s.mentions_fullText_iff hne hword

/-- The variables are those of the rules that are asked for, in the order of the table. -/
theorem localDeclarations_eq : s.localDeclarations =
    if s.askedRules = [] then [fallbackDeclaration]
    else s.askedRules.flatMap DeclarationRule.declarations := by
  have hrules : (declarationRules.filter fun r => mentions s.stepText r.word) = s.askedRules := by
    refine List.filter_congr fun r hr => ?_
    obtain ⟨hne, hword⟩ := word_of_mem_declarationRules r hr
    rw [Bool.eq_iff_iff, s.mentions_stepText_iff hne hword, decide_eq_true_iff]
  have hnonempty : ∀ r ∈ declarationRules, r.declarations ≠ [] := by decide
  rw [localDeclarations, hrules]
  cases hasked : s.askedRules with
  | nil => rfl
  | cons r rules =>
    have hmem : r ∈ declarationRules :=
      List.mem_of_mem_filter (hasked ▸ List.mem_cons_self : r ∈ s.askedRules)
    obtain ⟨d, more, hd⟩ := List.exists_cons_of_ne_nil (hnonempty r hmem)
    rw [List.flatMap_cons, hd, List.cons_append, if_neg (List.cons_ne_nil r rules)]

theorem nodup_localDeclarations : s.localDeclarations.Nodup := by
  have hall : (declarationRules.flatMap DeclarationRule.declarations).Nodup := by decide
  rw [localDeclarations_eq]
  split_ifs
  · exact List.nodup_singleton _
  · exact hall.sublist (List.filter_sublist.flatMap _)

end Scenario

/-- A scenario needs handlers exactly if one of the words for them occurs in the lower case of one of
its steps. Its variables are those of the rules whose word occurs in one of the labelled steps, in the
order of the table, or the fallback if there is no such rule; there is always one, and none comes
twice. So only the labelled steps in any order decide about variables, and all steps in any order
about handlers. No occurrence of a word reaches from one step into another. -/
theorem mentions_steps (s : Scenario) :
    (s.needsHandlers = true ↔ ∃ step ∈ s.allSteps, ∃ word ∈ handlerWords,
        word.toList <:+: lowercase step.toList) ∧
      s.localDeclarations = (if s.askedRules = [] then [fallbackDeclaration]
        else s.askedRules.flatMap DeclarationRule.declarations) ∧
      (s.localDeclarations ≠ [] ∧ s.localDeclarations.Nodup) ∧
      (∀ t : Scenario, t.labelledSteps.Perm s.labelledSteps →
        t.localDeclarations = s.localDeclarations) ∧
      (∀ t : Scenario, t.allSteps.Perm s.allSteps → t.needsHandlers = s.needsHandlers) ∧
      (∀ r ∈ declarationRules, IsWithinSteps s.stepText s.labelledSteps r.word) ∧
      ∀ word ∈ handlerWords, IsWithinSteps s.fullText s.allSteps word := by
  refine ⟨?_, s.localDeclarations_eq, ⟨s.localDeclarations_ne_nil, s.nodup_localDeclarations⟩,
    fun t h => ?_, fun t h => ?_, fun r hr => ?_, fun word hmem => ?_⟩
  · rw [s.needsHandlers_iff]
    constructor
    · rintro ⟨word, hmem, step, hstep, h⟩
      exact ⟨step, hstep, word, hmem, h⟩
    · rintro ⟨step, hstep, word, hmem, h⟩
      exact ⟨word, hmem, step, hstep, h⟩
  · have hrules : t.askedRules = s.askedRules :=
      List.filter_congr fun r _ => decide_eq_decide.2 (isMentioned_congr h r.word)
    rw [t.localDeclarations_eq, s.localDeclarations_eq, hrules]
  · rw [Bool.eq_iff_iff, t.needsHandlers_iff, s.needsHandlers_iff]
    exact exists_congr fun word => and_congr_right fun _ => isMentioned_congr h word
  · obtain ⟨hne, hword⟩ := word_of_mem_declarationRules r hr
    exact s.isWithinSteps_stepText hne hword
  · obtain ⟨hne, hword⟩ := word_of_mem_handlerWords word hmem
    exact s.isWithinSteps_fullText hne hword

/-- A scenario with a capital sigma at the end of a step, a word cut in two by steps, and one that only
an AND step has. -/
def mentioning : Scenario :=
  { id := 1
    title := "t"
    given := ["an ITEM from ΑΘΗΝΑΣ", "a ven"]
    when := ["dor is chosen"]
    ands := [⟨.when, "a Vendor WARNING appears"⟩] }

/-- The same steps but for the AND step, in another order and under other labels. -/
def relabelled : Scenario :=
  { id := 2
    title := "u"
    given := ["dor is chosen"]
    expected := ["a ven", "an ITEM from ΑΘΗΝΑΣ"] }

/-- The same steps in another order, where the former AND step is labelled. -/
def rearranged : Scenario :=
  { id := 3
    title := "v"
    when := ["dor is chosen", "a Vendor WARNING appears"]
    expected := ["a ven"]
    ands := [⟨.given, "an ITEM from ΑΘΗΝΑΣ"⟩] }

theorem mentions_steps_mentioning :
    (mentioning.localDeclarations = ["Item: Record Item;"] ∧
        relabelled.localDeclarations = mentioning.localDeclarations ∧
        rearranged.localDeclarations = ["Vendor: Record Vendor;"]) ∧
      (mentioning.needsHandlers = true ∧ rearranged.needsHandlers = mentioning.needsHandlers ∧
        relabelled.needsHandlers = false) ∧
      IsWithinSteps mentioning.fullText mentioning.allSteps "warning" := by
  have h := mentions_steps mentioning
  refine ⟨⟨by decide +kernel, h.2.2.2.1 relabelled (by decide), by decide +kernel⟩,
    ⟨?_, h.2.2.2.2.1 rearranged (by decide), by decide +kernel⟩, h.2.2.2.2.2.2 _ (by decide)⟩
  exact h.1.2 ⟨"a Vendor WARNING appears", by decide, "warning", by decide, by decide +kernel⟩

end Acceptance
