import Mathlib.Data.List.Basic
import Acceptance.Proofs.Plan.Bold
import Acceptance.Proofs.Plan.Written

/-!
# Steps are conserved

Every line with a step label says one thing. A scenario has the texts of these lines as its steps, each
list in the order of the lines, and nothing else. An AND step belongs to the group of the nearest label
line above it that opens a group, even if that line has no text.

Main results:

* `areLabelLines_labelLines`: the label lines among some lines.
* `isGroupBefore_groupAfter`: the group that is active is the one opened last.
* `Scenario.isMadeOf_ofLines`: a scenario is made of its label lines.
-/

namespace Acceptance

open Text

/-! ## Specification -/

/-- A line with a step label. -/
structure LabelLine where
  place : ℕ
  label : Label
  /-- The text behind the label, which may be empty. -/
  text : List Char
  deriving Repr, DecidableEq

/-- Whether a label line makes a step. -/
def LabelLine.isFilled (l : LabelLine) : Bool := !l.text.isEmpty

/-- Whether some label lines are all those among the given lines, in order. -/
structure AreLabelLines (lines : List (List Char)) (labelled : List LabelLine) : Prop where
  mem_iff : ∀ l, l ∈ labelled ↔
    ∃ line, lines[l.place]? = some line ∧ IsLeftmost StartsStep line (l.label, l.text)
  ordered : labelled.Pairwise fun l m => l.place < m.place

/-- Whether a group is the one of the nearest label line above a place that opens a group; if there is
none, it is the given group. -/
def IsGroupBefore (labelled : List LabelLine) (place : ℕ) (g : Group) : Prop :=
  (∃ l ∈ labelled, l.place < place ∧ l.label.group? = some g ∧
    ∀ m ∈ labelled, l.place < m.place → m.place < place → m.label.group? = none) ∨
  ((∀ l ∈ labelled, l.place < place → l.label.group? = none) ∧ g = .given)

/-- Whether a priority is the one on the first line that has any, or else `Medium`. -/
def IsPriorityOf (lines : List (List Char)) (priority : String) : Prop :=
  (∃ before line later word, lines = before ++ line :: later ∧
    IsLeftmost StartsPriority line word ∧ priority = String.ofList word ∧
      ∀ l ∈ before, ∀ w, ¬ IsLeftmost StartsPriority l w) ∨
  ((∀ line ∈ lines, ∀ word, ¬ IsLeftmost StartsPriority line word) ∧ priority = "Medium")

/-- Whether a scenario is made of some label lines: the texts behind the label of a group are its
steps, and those behind an AND label are AND steps. -/
structure Scenario.IsMadeOf (s : Scenario) (labelled : List LabelLine) : Prop where
  steps : ∀ (g : Group) (label : Label), label.group? = some g → s.steps g =
    (labelled.filter fun l => l.label == label && l.isFilled).map fun l => String.ofList l.text
  ands : List.Forall₂
    (fun step l => step.text = String.ofList l.text ∧ IsGroupBefore labelled l.place step.group)
    s.ands (labelled.filter fun l => l.label == .and && l.isFilled)
  count : s.stepCount = labelled.countP LabelLine.isFilled

/-! ## Label lines -/

/-- The label lines among some lines. -/
def labelLines (lines : List (List Char)) : List LabelLine :=
  lines.zipIdx.filterMap fun line => (step? line.1).map fun said => ⟨line.2, said.1, said.2⟩

theorem mem_labelLines_iff {lines : List (List Char)} {l : LabelLine} :
    l ∈ labelLines lines ↔
      ∃ line, lines[l.place]? = some line ∧ step? line = some (l.label, l.text) := by
  rw [labelLines, List.mem_filterMap]
  constructor
  · rintro ⟨⟨line, place⟩, hline, hsaid⟩
    obtain ⟨said, hstep, rfl⟩ := Option.map_eq_some_iff.1 hsaid
    exact ⟨line, List.mem_zipIdx_iff_getElem?.1 hline, hstep⟩
  · rintro ⟨line, hline, hstep⟩
    exact ⟨(line, l.place), List.mem_zipIdx_iff_getElem?.2 hline, by rw [hstep]; rfl⟩

theorem pairwise_zipIdx {α : Type} (l : List α) (place : ℕ) :
    (l.zipIdx place).Pairwise fun a b => a.2 < b.2 := by
  induction l generalizing place with
  | nil => exact .nil
  | cons a l ih =>
    exact List.pairwise_cons.2 ⟨fun b hb => List.le_snd_of_mem_zipIdx hb, ih (place + 1)⟩

theorem pairwise_labelLines (lines : List (List Char)) :
    (labelLines lines).Pairwise fun l m => l.place < m.place := by
  refine List.pairwise_filterMap.2 ((pairwise_zipIdx lines 0).imp fun hlt l hl m hm => ?_)
  obtain ⟨_, -, rfl⟩ := Option.map_eq_some_iff.1 hl
  obtain ⟨_, -, rfl⟩ := Option.map_eq_some_iff.1 hm
  exact hlt

theorem areLabelLines_labelLines {lines : List (List Char)} (h : ∀ line ∈ lines, '\n' ∉ line) :
    AreLabelLines lines (labelLines lines) where
  mem_iff := by
    intro l
    rw [mem_labelLines_iff]
    refine exists_congr fun line => and_congr_right fun hline => ?_
    exact step?_eq_some_iff (h line (List.mem_of_getElem? hline))
  ordered := pairwise_labelLines lines

/-- The label lines without their places. -/
theorem map_labelLines (lines : List (List Char)) :
    (labelLines lines).map (fun l => (l.label, l.text)) = lines.filterMap step? := by
  rw [labelLines, List.map_filterMap]
  conv_rhs => rw [← List.zipIdx_map_fst 0 lines, List.filterMap_map]
  refine List.filterMap_congr fun line _ => ?_
  rw [Option.map_map]
  exact Option.map_id'

/-! ## The active group -/

/-- The group after some labels is the one opened last. -/
theorem exists_groupAfter (labelled : List LabelLine) :
    (∃ before l later, labelled = before ++ l :: later ∧
        l.label.group? = some (groupAfter (labelled.map (·.label))) ∧
        ∀ m ∈ later, m.label.group? = none) ∨
      ((∀ l ∈ labelled, l.label.group? = none) ∧
        groupAfter (labelled.map (·.label)) = .given) := by
  induction labelled using List.reverseRecOn with
  | nil => exact .inr ⟨nofun, rfl⟩
  | append_singleton labelled l ih =>
    rw [List.map_append, List.map_singleton, ← observe_groupAfter, Label.observe]
    cases hl : l.label.group? with
    | some g => exact .inl ⟨labelled, l, [], rfl, hl, nofun⟩
    | none =>
      rw [Option.getD_none]
      have hnone {p : LabelLine → Prop} (hp : ∀ m ∈ labelled, p m) (hlast : p l) :
          ∀ m ∈ labelled ++ [l], p m := fun m hm =>
        (List.mem_append.1 hm).elim (hp m) fun hm => List.mem_singleton.1 hm ▸ hlast
      rcases ih with ⟨before, m, later, rfl, hm, hlater⟩ | ⟨hall, hg⟩
      · refine .inl ⟨before, m, later ++ [l], by simp, hm, fun n hn => ?_⟩
        rcases List.mem_append.1 hn with hn | hn
        · exact hlater n hn
        · exact List.mem_singleton.1 hn ▸ hl
      · exact .inr ⟨hnone hall hl, hg⟩

/-- The group that is active at a label line is the one of the nearest label line above it that opens
a group. -/
theorem isGroupBefore_groupAfter {before later : List LabelLine} {l : LabelLine}
    (h : (before ++ l :: later).Pairwise fun l m => l.place < m.place) :
    IsGroupBefore (before ++ l :: later) l.place (groupAfter (before.map (·.label))) := by
  obtain ⟨hbefore, hrest, hacross⟩ := List.pairwise_append.1 h
  -- the label lines above this one
  have habove : ∀ m ∈ before ++ l :: later, m.place < l.place → m ∈ before := by
    intro m hm hlt
    rcases List.mem_append.1 hm with hm | hm
    · exact hm
    · rcases List.mem_cons.1 hm with rfl | hm
      · exact absurd hlt (Nat.lt_irrefl _)
      · exact absurd hlt (Nat.lt_asymm ((List.pairwise_cons.1 hrest).1 m hm))
  rcases exists_groupAfter before with ⟨first, m, between, hsplit, hgroup, hnone⟩ | ⟨hnone, hg⟩
  · have hm : m ∈ before := hsplit ▸ List.mem_append_right first List.mem_cons_self
    refine .inl ⟨m, List.mem_append_left _ hm, hacross m hm l List.mem_cons_self, hgroup,
      fun n hn hlt hplace => hnone n ?_⟩
    have hn := habove n hn hplace
    rw [hsplit] at hn hbefore
    rcases List.mem_append.1 hn with hn | hn
    · have := (List.pairwise_append.1 hbefore).2.2 n hn m List.mem_cons_self
      exact absurd hlt (Nat.lt_asymm this)
    · rcases List.mem_cons.1 hn with rfl | hn
      · exact absurd hlt (Nat.lt_irrefl _)
      · exact hn
  · exact .inr ⟨fun m hm hlt => hnone m (habove m hm hlt), hg⟩

/-! ## Steps -/

/-- The step of a label line with the given number of label lines above it. -/
def LabelLine.step (labelled : List LabelLine) (l : LabelLine × ℕ) : Step where
  label := l.1.label
  group := l.1.label.observe (groupAfter ((labelled.take l.2).map (·.label)))
  text := l.1.text

theorem ofLines_eq_map_step (lines : List (List Char)) : Step.ofLines lines =
    ((labelLines lines).zipIdx.filter fun l => l.1.isFilled).map
      (LabelLine.step (labelLines lines)) := by
  have hattributed : Step.attributed .given (lines.filterMap step?) =
      (labelLines lines).zipIdx.map (LabelLine.step (labelLines lines)) := by
    rw [← map_labelLines]
    refine (attributed_eq [] _).trans ?_
    rw [List.length_nil, List.zipIdx_map, List.map_map]
    refine List.map_congr_left fun l _ => ?_
    simp only [Function.comp_apply, Prod.map, id_eq, List.nil_append, ← List.map_take, List.map_map]
    rfl
  rw [Step.ofLines, hattributed, List.filter_map]
  rfl

/-- The steps with a label. -/
theorem filter_ofLines (lines : List (List Char)) (label : Label) :
    (Step.ofLines lines).filter (·.label == label) =
      ((labelLines lines).zipIdx.filter fun l => l.1.label == label && l.1.isFilled).map
        (LabelLine.step (labelLines lines)) := by
  rw [ofLines_eq_map_step, List.filter_map, List.filter_filter]
  rfl

theorem map_fst_filter_zipIdx (p : LabelLine → Bool) (labelled : List LabelLine) :
    (labelled.zipIdx.filter fun l => p l.1).map Prod.fst = labelled.filter p := by
  conv_rhs => rw [← List.zipIdx_map_fst 0 labelled, List.filter_map]
  rfl

theorem texts_ofLines (lines : List (List Char)) (label : Label) :
    ((Step.ofLines lines).filter (·.label == label)).map (fun s => String.ofList s.text) =
      ((labelLines lines).filter fun l => l.label == label && l.isFilled).map fun l =>
        String.ofList l.text := by
  rw [filter_ofLines, ← map_fst_filter_zipIdx, List.map_map, List.map_map]
  rfl

/-- The group of an AND step. -/
theorem isGroupBefore_step {lines : List (List Char)} {l : LabelLine} {i : ℕ}
    (hl : (l, i) ∈ (labelLines lines).zipIdx) (hand : l.label = .and) :
    IsGroupBefore (labelLines lines) l.place (LabelLine.step (labelLines lines) (l, i)).group := by
  have hget : (labelLines lines)[i]? = some l := List.mem_zipIdx_iff_getElem?.1 hl
  obtain ⟨hi, hget⟩ := List.getElem?_eq_some_iff.1 hget
  have hordered := pairwise_labelLines lines
  have hsplit : labelLines lines =
      (labelLines lines).take i ++ l :: (labelLines lines).drop (i + 1) := by
    rw [← hget, ← List.drop_eq_getElem_cons hi, List.take_append_drop]
  rw [hsplit] at hordered
  have hgroup := isGroupBefore_groupAfter hordered
  rw [← hsplit] at hgroup
  show IsGroupBefore (labelLines lines) l.place (l.label.observe _)
  rwa [hand, Label.observe_and]

theorem ands_ofLines (lines : List (List Char)) :
    List.Forall₂
      (fun step l => step.text = String.ofList l.text ∧
        IsGroupBefore (labelLines lines) l.place step.group)
      (((Step.ofLines lines).filter (·.label == .and)).map fun s =>
        (⟨s.group, String.ofList s.text⟩ : AndStep))
      ((labelLines lines).filter fun l => l.label == .and && l.isFilled) := by
  rw [filter_ofLines, ← map_fst_filter_zipIdx, List.map_map, List.forall₂_map_left_iff,
    List.forall₂_map_right_iff, List.forall₂_same]
  rintro ⟨l, i⟩ hl
  obtain ⟨hl, hfilled⟩ := List.mem_filter.1 hl
  rw [Bool.and_eq_true, beq_iff_eq] at hfilled
  exact ⟨rfl, isGroupBefore_step hl hfilled.1⟩

/-- Every step has one of the four labels. -/
theorem countP_isFilled (labelled : List LabelLine) :
    labelled.countP LabelLine.isFilled =
      (labelled.filter fun l => l.label == .given && l.isFilled).length +
      (labelled.filter fun l => l.label == .when && l.isFilled).length +
      (labelled.filter fun l => l.label == .expected && l.isFilled).length +
      (labelled.filter fun l => l.label == .and && l.isFilled).length := by
  simp only [← List.countP_eq_length_filter]
  induction labelled with
  | nil => rfl
  | cons l labelled ih =>
    obtain ⟨place, label, text⟩ := l
    simp only [List.countP_cons, ih]
    cases label <;> cases LabelLine.isFilled _ <;> simp <;> omega

/-! ## Scenarios -/

theorem isPriorityOf_ofLines (lines : List (List Char)) :
    IsPriorityOf lines (((lines.findSome? priority?).map String.ofList).getD defaultPriority) := by
  cases hfind : lines.findSome? priority? with
  | some word =>
    obtain ⟨before, line, later, rfl, hline, hbefore⟩ := List.findSome?_eq_some_iff.1 hfind
    refine .inl ⟨before, line, later, word, rfl, priority?_eq_some_iff.1 hline, rfl,
      fun l hl w hw => ?_⟩
    have := hbefore l hl
    rw [priority?_eq_some_iff.2 hw] at this
    cases this
  | none =>
    refine .inr ⟨fun line hline word hw => ?_, rfl⟩
    have := List.findSome?_eq_none_iff.1 hfind line hline
    rw [priority?_eq_some_iff.2 hw] at this
    cases this

/-- A scenario is made of its label lines and its first priority. -/
theorem Scenario.isMadeOf_ofLines {lines : List (List Char)} (h : ∀ line ∈ lines, '\n' ∉ line)
    (id : UInt32) (title : String) :
    ∃ labelled, AreLabelLines lines labelled ∧ (ofLines id title lines).IsMadeOf labelled ∧
      IsPriorityOf lines (ofLines id title lines).priority := by
  have hsteps (g : Group) (label : Label) (hg : label.group? = some g) :
      (ofLines id title lines).steps g =
        ((labelLines lines).filter fun l => l.label == label && l.isFilled).map fun l =>
          String.ofList l.text := by
    cases label with
    | and => cases hg
    | given | when | expected => exact (Option.some.inj hg) ▸ texts_ofLines lines _
  have hands := ands_ofLines lines
  have hcount : (ofLines id title lines).stepCount =
      (labelLines lines).countP LabelLine.isFilled := by
    have hlength (g : Group) (label : Label) (hg : label.group? = some g) :
        ((labelLines lines).filter fun l => l.label == label && l.isFilled).length =
          ((ofLines id title lines).steps g).length := by
      rw [hsteps g label hg, List.length_map]
    rw [countP_isFilled, hlength .given .given rfl, hlength .when .when rfl,
      hlength .expected .expected rfl, ← hands.length_eq]
    rfl
  exact ⟨labelLines lines, areLabelLines_labelLines h, ⟨hsteps, hands, hcount⟩,
    isPriorityOf_ofLines lines⟩

/-- Lines with labels in any case, without text, behind each other and behind another word in bold. -/
def mixedSteps : List (List Char) := ["**Priority** **Given** : a card", "- ** when:** it is posted",
  "**And**", "**AND** it is shown **Then** printed", "**then** :", "**And**: Then all is kept",
  "**Note** **priority:** Low-ish", "Given a line without a label"].map String.toList

theorem Scenario.isMadeOf_ofLines_mixedSteps :
    (∀ line ∈ mixedSteps, '\n' ∉ line) ∧
      (∃ labelled, AreLabelLines mixedSteps labelled ∧ (ofLines 1 "" mixedSteps).IsMadeOf labelled ∧
        IsPriorityOf mixedSteps (ofLines 1 "" mixedSteps).priority) ∧
      ofLines 1 "" mixedSteps =
        { id := 1, title := "", priority := "Low", given := ["a card"], when := ["it is posted"]
          ands := [⟨.when, "it is shown **Then** printed"⟩, ⟨.expected, "Then all is kept"⟩] } := by
  have hfeed : ∀ line ∈ mixedSteps, '\n' ∉ line := by decide
  exact ⟨hfeed, isMadeOf_ofLines hfeed 1 "", by decide +kernel⟩

end Acceptance
