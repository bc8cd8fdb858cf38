import Mathlib.Data.List.Basic
import Acceptance.Proofs.Pipeline
import Acceptance.Proofs.Plan.Label
import Acceptance.Proofs.Text.Reader

/-!
# Scenarios as they are written

A scenario is written as a heading with its number and its title, a line with its priority and one
line for each step with its label in bold. The lines are read one by one: each says what was written
on it, whatever the texts are. A heading, a label, a rule or a priority inside of a step is text.

Main results:

* `WrittenStep.IsWritable.step?_line`: the line of a step.
* `WrittenScenario.IsWritable.ofLine?_headingLine`, `priority?_priorityLine`: the other lines.
* `attributed_eq`: the group that a step belongs to.
* `WrittenScenario.IsWritable.scenario?_block`: a whole scenario.
-/

namespace Acceptance

open Text Markup

/-! ## Specification -/

/-- A step as it is written. -/
structure WrittenStep where
  label : Label
  text : String
  deriving Repr, DecidableEq

namespace WrittenStep

/-- The line of a step. -/
def line (s : WrittenStep) : String := s!"- **{s.label.name}** {s.text}"

/-- Whether a step can be told from its line. -/
structure IsWritable (s : WrittenStep) : Prop where
  ne_nil : s.text.toList ≠ []
  trimmed : trim s.text.toList = s.text.toList
  no_feed : '\n' ∉ s.text.toList
  no_colon : s.text.toList.head? ≠ some ':'

instance (s : WrittenStep) : Decidable s.IsWritable :=
  decidable_of_iff (s.text.toList ≠ [] ∧ trim s.text.toList = s.text.toList ∧
      '\n' ∉ s.text.toList ∧ s.text.toList.head? ≠ some ':')
    ⟨fun h => ⟨h.1, h.2.1, h.2.2.1, h.2.2.2⟩,
      fun h => ⟨h.ne_nil, h.trimmed, h.no_feed, h.no_colon⟩⟩

end WrittenStep

/-- The group of the last label that opens one, or the given group. -/
def groupAfter (labels : List Label) : Group := (labels.filterMap Label.group?).getLast?.getD .given

/-- A scenario as it is written. -/
structure WrittenScenario where
  id : UInt32
  title : String
  priority : String
  steps : List WrittenStep
  deriving Repr, DecidableEq

namespace WrittenScenario

/-- The line of the heading. -/
def headingLine (s : WrittenScenario) : String := s!"### Scenario {s.id.toNat}: {s.title}"

/-- The line of the priority. -/
def priorityLine (s : WrittenScenario) : String := s!"**Priority**: {s.priority}"

/-- The lines of a scenario. -/
def lines (s : WrittenScenario) : List String :=
  s.headingLine :: s.priorityLine :: s.steps.map WrittenStep.line

/-- Whether a scenario can be told from its lines. -/
structure IsWritable (s : WrittenScenario) : Prop where
  id_ne_zero : s.id ≠ 0
  trimmed : trim s.title.toList = s.title.toList
  no_feed : '\n' ∉ s.title.toList
  no_star : '*' ∉ s.title.toList
  no_low : '_' ∉ s.title.toList
  no_tick : tick ∉ s.title.toList
  priority_ne_nil : s.priority.toList ≠ []
  priority_word : ∀ c ∈ s.priority.toList, isWordChar c = true
  steps : ∀ step ∈ s.steps, step.IsWritable

instance (s : WrittenScenario) : Decidable s.IsWritable :=
  decidable_of_iff (s.id ≠ 0 ∧ trim s.title.toList = s.title.toList ∧ '\n' ∉ s.title.toList ∧
      '*' ∉ s.title.toList ∧ '_' ∉ s.title.toList ∧ tick ∉ s.title.toList ∧
      s.priority.toList ≠ [] ∧ s.priority.toList.all isWordChar = true ∧
      ∀ step ∈ s.steps, step.IsWritable)
    ⟨fun ⟨hid, ht, hfeed, hstar, hlow, htick, hp, hw, hs⟩ =>
        ⟨hid, ht, hfeed, hstar, hlow, htick, hp, List.all_eq_true.1 hw, hs⟩,
      fun h => ⟨h.id_ne_zero, h.trimmed, h.no_feed, h.no_star, h.no_low, h.no_tick,
        h.priority_ne_nil, List.all_eq_true.2 h.priority_word, h.steps⟩⟩

/-- The texts of the steps with a label. -/
def textsOf (s : WrittenScenario) (label : Label) : List String :=
  (s.steps.filter (·.label == label)).map (·.text)

/-- The group that is active in front of a step. -/
def groupBefore (s : WrittenScenario) (place : ℕ) : Group :=
  groupAfter ((s.steps.take place).map (·.label))

/-- The AND steps with their groups. -/
def ands (s : WrittenScenario) : List AndStep :=
  (s.steps.zipIdx.filter (·.1.label == .and)).map fun step => ⟨s.groupBefore step.2, step.1.text⟩

/-- The scenario that is written. -/
def scenario (s : WrittenScenario) : Scenario where
  id := s.id
  title := s.title
  priority := s.priority
  given := s.textsOf .given
  when := s.textsOf .when
  expected := s.textsOf .expected
  ands := s.ands

end WrittenScenario

/-! ## Steps -/

namespace WrittenStep

variable {s : WrittenStep}

theorem toList_line (s : WrittenStep) :
    s.line.toList = "- **".toList ++ (s.label.name.toList ++ ("** ".toList ++ s.text.toList)) := by
  rw [line, String.toList_append, String.toList_append, String.toList_append, List.append_assoc,
    List.append_assoc]
  rfl

theorem isBodyLine_line (s : WrittenStep) : IsBodyLine s.line.toList := by
  have hstar : '*' ∈ " **".toList ++ (s.label.name.toList ++ ("** ".toList ++ s.text.toList)) :=
    List.mem_append_left _ (by decide)
  rw [toList_line]
  exact isBodyLine_cons (by decide) (by decide) hstar (by decide) (by decide)

/-- A text that starts with neither a blank nor a colon stands behind its label as it is. -/
theorem IsWritable.skipMark_eq (h : s.IsWritable) :
    skipMark (' ' :: s.text.toList) = s.text.toList := by
  have hblanks : skipBlanks s.text.toList = s.text.toList := skipBlanks_of_trim h.trimmed
  have hspace : skipBlanks (' ' :: s.text.toList) = s.text.toList := hblanks
  rw [skipMark, hspace, skipColon_of_head? h.no_colon, hblanks]

/-- A step is read from its line, whatever its text holds. -/
theorem IsWritable.step?_line (h : s.IsWritable) :
    step? s.line.toList = some (s.label, s.text.toList) := by
  let labelled := "**".toList ++ (s.label.name.toList ++ ("** ".toList ++ s.text.toList))
  have hbold : boldLabel? (keyword? s.label.word) labelled = some (' ' :: s.text.toList) := by
    unfold labelled
    cases s.label <;> rfl
  have hother : ∀ l, l ≠ s.label → boldLabel? (keyword? l.word) labelled = none := by
    unfold labelled
    intro l hl
    cases l <;> cases hs : s.label <;> first | rfl | exact absurd hs.symm hl
  have hstart : stepHere? labelled = some (s.label, s.text.toList) := by
    rw [stepHere?_eq_some hbold hother (by rw [h.skipMark_eq]; exact h.no_feed), h.skipMark_eq,
      h.trimmed]
  rw [toList_line]
  show firstMatch? stepHere? labelled = _
  exact firstMatch?_of_some hstart

end WrittenStep

/-! ## The priority -/

namespace WrittenScenario

variable {s : WrittenScenario}

theorem toList_priorityLine (s : WrittenScenario) :
    s.priorityLine.toList = "**Priority**: ".toList ++ s.priority.toList := by
  rw [priorityLine]
  exact String.toList_append

theorem isBodyLine_priorityLine (s : WrittenScenario) : IsBodyLine s.priorityLine.toList := by
  have hletter : 'P' ∈ "*Priority**: ".toList ++ s.priority.toList :=
    List.mem_append_left _ (by decide)
  rw [toList_priorityLine]
  exact isBodyLine_cons (by decide) (by decide) hletter (by decide) (by decide)

theorem IsWritable.priority?_priorityLine (h : s.IsWritable) :
    priority? s.priorityLine.toList = some s.priority.toList := by
  have hmark : skipMark (": ".toList ++ s.priority.toList) = s.priority.toList := by
    obtain ⟨c, word, hword⟩ := List.exists_cons_of_ne_nil h.priority_ne_nil
    have hc : isBlank c = false :=
      not_isBlank_of_isWordChar (h.priority_word c (hword ▸ List.mem_cons_self))
    rw [hword]
    exact skipBlanks_cons hc word
  have hrun : run? isWordChar s.priority.toList = some (s.priority.toList, []) := by
    have hend : ∀ c ∈ ([] : List Char).head?, isWordChar c = false := nofun
    have := run?_append h.priority_ne_nil h.priority_word hend
    rwa [List.append_nil] at this
  have hbold : boldLabel? (keyword? "priority".toList)
      ("**Priority**: ".toList ++ s.priority.toList) = some (": ".toList ++ s.priority.toList) :=
    rfl
  rw [toList_priorityLine]
  refine firstMatch?_of_some ?_
  rw [priorityHere?, hbold, Option.bind_eq_bind, Option.bind_some, hmark, hrun]
  rfl

theorem IsWritable.step?_priorityLine (h : s.IsWritable) :
    step? s.priorityLine.toList = none := by
  have hstar : '*' ∉ s.priority.toList := fun hm => absurd (h.priority_word _ hm) (by decide)
  have hskip : step? ("**Priority**: ".toList ++ s.priority.toList) = step? s.priority.toList := rfl
  rw [toList_priorityLine, hskip, step?_eq_none hstar]

/-! ## The heading -/

theorem toList_headingLine (s : WrittenScenario) : s.headingLine.toList =
    "### Scenario ".toList ++ (Nat.toDigits 10 s.id.toNat ++ (": ".toList ++ s.title.toList)) := by
  rw [headingLine, String.toList_append, String.toList_append, String.toList_append,
    Nat.toString_eq_repr, Nat.toList_repr, List.append_assoc, List.append_assoc]
  rfl

theorem IsWritable.ofLine?_headingLine (h : s.IsWritable) :
    Heading.ofLine? s.headingLine.toList =
      some ⟨3, Nat.toDigits 10 s.id.toNat, s.title.toList⟩ := by
  have hplain := isPlain_toDigits s.id.toNat
  have hne : Nat.toDigits 10 s.id.toNat ≠ [] := Nat.toDigits_ne_nil
  have hblanks (t : List Char) : blanks? (' ' :: (Nat.toDigits 10 s.id.toNat ++ t)) =
      some (Nat.toDigits 10 s.id.toNat ++ t) := by
    obtain ⟨d, ds, hd⟩ := List.exists_cons_of_ne_nil hne
    rw [hd]
    exact blanks?_space (not_isBlank_of_plain (hplain d (hd ▸ List.mem_cons_self))) _
  have hrun (t : List Char) : run? isNameChar (Nat.toDigits 10 s.id.toNat ++ (": ".toList ++ t)) =
      some (Nat.toDigits 10 s.id.toNat, ": ".toList ++ t) := by
    refine run?_append hne (fun c hc => (plain_spec (hplain c hc)).2.1) ?_
    rintro c ⟨⟩
    decide
  have htitle : skipBlanks (skipSeparator (skipBlanks (": ".toList ++ s.title.toList))) =
      s.title.toList := skipBlanks_of_trim h.trimmed
  have hhashes (t : List Char) :
      hashes? ("### Scenario ".toList ++ t) = some (3, " Scenario ".toList ++ t) := rfl
  have hword (t : List Char) : keyword? "scenario".toList (skipBlanks
      ((skipBlanks (" Scenario ".toList ++ t)).dropWhile fun c => c == '*' || c == '_')) =
        some (' ' :: t) := rfl
  rw [toList_headingLine, Heading.ofLine?, hhashes]
  simp only [Option.bind_eq_bind, Option.bind_some, hword, hblanks, hrun, htitle]
  rfl

end WrittenScenario

/-! ## The title -/

namespace WrittenScenario

variable {s : WrittenScenario}

/-- Nothing is taken away from a title in which no emphasis is reported. -/
theorem IsWritable.withoutMarkup?_title (h : s.IsWritable) {spans : List Char → List Span}
    (hs : spans s.title.toList = []) :
    withoutMarkup? spans s.title.toList = some s.title.toList := by
  have hkept : (s.title.toList.filter fun c => !isDecoration c) = s.title.toList := by
    refine List.filter_eq_self.2 fun c hc => ?_
    have hstar : c ≠ '*' := fun he => h.no_star (he ▸ hc)
    have htick : c ≠ tick := fun he => h.no_tick (he ▸ hc)
    simp [isDecoration, hstar, htick]
  have hborder : trimWhile isBorder s.title.toList = s.title.toList := by
    refine (trimWhile_congr fun c hc => ?_).trans h.trimmed
    have hlow : c ≠ '_' := fun he => h.no_low (he ▸ hc)
    simp [isBorder, hlow]
  rw [withoutMarkup?_of_nil hs, hkept, hborder]

end WrittenScenario

/-! ## Groups -/

theorem observe_groupAfter (labels : List Label) (label : Label) :
    label.observe (groupAfter labels) = groupAfter (labels ++ [label]) := by
  rw [groupAfter, groupAfter, List.filterMap_append, Label.observe]
  cases hg : label.group? with
  | none => simp [List.filterMap_cons_none hg]
  | some g => simp [List.filterMap_cons_some hg]

/-- Every labelled line belongs to the group of its label, or to the one that is active there. -/
theorem attributed_eq (before labelled : List (Label × List Char)) :
    Step.attributed (groupAfter (before.map Prod.fst)) labelled =
      (labelled.zipIdx before.length).map fun p => ⟨p.1.1,
        p.1.1.observe (groupAfter (((before ++ labelled).take p.2).map Prod.fst)), p.1.2⟩ := by
  induction labelled generalizing before with
  | nil => rfl
  | cons p labelled ih =>
    have ih := ih (before ++ [p])
    rw [List.length_append, List.length_singleton, List.append_assoc, List.singleton_append,
      List.map_append, List.map_singleton] at ih
    obtain ⟨label, text⟩ := p
    rw [Step.attributed, observe_groupAfter, ih, List.zipIdx_cons, List.map_cons, List.take_left,
      ← observe_groupAfter]

/-! ## Scenarios -/

namespace WrittenScenario

variable {s : WrittenScenario}

/-- The lines below the heading. -/
def body (s : WrittenScenario) : List (List Char) :=
  s.priorityLine.toList :: s.steps.map (·.line.toList)

theorem isBodyLine_of_mem_body {line : List Char} (h : line ∈ s.body) : IsBodyLine line := by
  rcases List.mem_cons.1 h with rfl | h
  · exact s.isBodyLine_priorityLine
  · obtain ⟨step, -, rfl⟩ := List.mem_map.1 h
    exact step.isBodyLine_line

/-- The steps of a body with their groups. -/
theorem IsWritable.ofLines_body (h : s.IsWritable) : Step.ofLines s.body =
    s.steps.zipIdx.map fun p =>
      ⟨p.1.label, p.1.label.observe (s.groupBefore p.2), p.1.text.toList⟩ := by
  have hsteps : s.body.filterMap step? = s.steps.map fun step => (step.label, step.text.toList) := by
    rw [body, List.filterMap_cons_none h.step?_priorityLine, List.filterMap_map,
      ← List.filterMap_eq_map]
    exact List.filterMap_congr fun step hstep => (h.steps step hstep).step?_line
  have hattributed : Step.attributed .given (s.body.filterMap step?) = s.steps.zipIdx.map fun p =>
      ⟨p.1.label, p.1.label.observe (s.groupBefore p.2), p.1.text.toList⟩ := by
    rw [hsteps]
    refine (attributed_eq [] _).trans ?_
    rw [List.length_nil, List.zipIdx_map, List.map_map]
    refine List.map_congr_left fun p _ => ?_
    simp only [Function.comp_apply, Prod.map, id_eq, List.nil_append, groupBefore, ← List.map_take,
      List.map_map]
    rfl
  rw [Step.ofLines, hattributed]
  refine List.filter_eq_self.2 fun step hstep => ?_
  obtain ⟨p, hp, rfl⟩ := List.mem_map.1 hstep
  have hne := (h.steps p.1 (List.fst_mem_of_mem_zipIdx hp)).ne_nil
  simpa using hne

theorem IsWritable.scenario_body (h : s.IsWritable) :
    Scenario.ofLines s.id s.title s.body = s.scenario := by
  have htexts (label : Label) : ((Step.ofLines s.body).filter (·.label == label)).map
      (fun step => String.ofList step.text) = s.textsOf label := by
    rw [h.ofLines_body, textsOf, List.filter_map, List.map_map]
    conv_rhs => rw [← List.zipIdx_map_fst 0 s.steps, List.filter_map, List.map_map]
    refine List.map_congr_left fun p _ => ?_
    exact String.ofList_toList
  have hands : ((Step.ofLines s.body).filter (·.label == .and)).map
      (fun step => (⟨step.group, String.ofList step.text⟩ : AndStep)) = s.ands := by
    rw [h.ofLines_body, ands, List.filter_map, List.map_map]
    refine List.map_congr_left fun p hp => ?_
    have hlabel : p.1.label = .and := by simpa using (List.mem_filter.1 hp).2
    show (⟨p.1.label.observe _, String.ofList p.1.text.toList⟩ : AndStep) = _
    rw [hlabel, Label.observe_and, String.ofList_toList]
  have hpriority : s.body.findSome? priority? = some s.priority.toList := by
    rw [body, List.findSome?_cons, h.priority?_priorityLine]
  simp only [Scenario.ofLines, htexts, hands, hpriority, Option.map_some, Option.getD_some,
    String.ofList_toList]
  rfl

/-- The block of a scenario. -/
def block (s : WrittenScenario) : Block :=
  ⟨⟨3, Nat.toDigits 10 s.id.toNat, s.title.toList⟩, s.body⟩

theorem IsWritable.scenario?_block (h : s.IsWritable) {spans : List Char → List Span}
    (hs : spans s.title.toList = []) (place : ℕ) :
    s.block.scenario? spans place = some s.scenario := by
  have hid : (scenarioNumber? s.block.heading.token).getD (placeNumber place) = s.id := by
    rw [block, scenarioNumber?_toDigits h.id_ne_zero]
    rfl
  have htitle : withoutMarkup? spans s.block.heading.title = some s.title.toList :=
    h.withoutMarkup?_title hs
  rw [Block.scenario?, hid, htitle, Option.bind_eq_bind, Option.bind_some, String.ofList_toList]
  exact congrArg some h.scenario_body

end WrittenScenario

end Acceptance
