import Mathlib.Data.List.Basic
import Acceptance.Plan.Read
import Acceptance.Proofs.Text.Reader

/-!
# Plans are read line by line

A reader that looks at one line returns parts of that line. As no line holds a line feed, neither
does any text of a plan that is read.

Main results:

* `boldLabel?_suffix`: what comes behind a label is a part of the line.
* `Plan.isSingleLine_read`: no text of a plan holds a line feed.
-/

namespace Acceptance

open Text

/-! ## The texts of a plan -/

/-- All texts of a scenario. -/
def Scenario.texts (s : Scenario) : List String :=
  s.title :: s.priority :: (s.given ++ s.when ++ s.expected ++ s.ands.map (·.text))

/-- All texts of a plan. -/
def Plan.texts (p : Plan) : List String :=
  [p.metadata.testPlanId, p.metadata.workItem, p.metadata.project, p.metadata.feature] ++
    p.scenarios.flatMap Scenario.texts

/-- Whether no text of a plan holds a line feed. -/
def Plan.IsSingleLine (p : Plan) : Prop := ∀ text ∈ p.texts, '\n' ∉ text.toList

instance (p : Plan) : Decidable p.IsSingleLine := by
  unfold Plan.IsSingleLine
  infer_instance

/-! ## Readers return parts of what they read -/

namespace Text

theorem mem_of_mem_trim {c : Char} {s : List Char} (h : c ∈ trim s) : c ∈ s :=
  Markup.mem_of_mem_trimWhile h

end Text

/-! ## Labels -/

theorem skipColon_suffix (s : List Char) : skipColon s <:+ s := by
  unfold skipColon
  split
  · exact List.suffix_cons _ _
  · exact List.suffix_refl _

theorem skipMark_suffix (s : List Char) : skipMark s <:+ s :=
  (skipBlanks_suffix _).trans ((skipColon_suffix _).trans (skipBlanks_suffix s))

theorem boldLabel?_suffix {word? : List Char → Option (List Char)}
    (hw : ∀ t r, word? t = some r → r <:+ t) {s rest : List Char}
    (h : boldLabel? word? s = some rest) : rest <:+ s := by
  obtain ⟨body, tail, rfl, ht, hr⟩ := boldLabel?_eq_some_iff.1 h
  have h1 : rest <:+ skipMark tail := ⟨['*', '*'], hr.symm⟩
  have h2 : tail <:+ body := (hw _ _ ht).trans (skipBlanks_suffix body)
  exact (h1.trans (skipMark_suffix tail)).trans (h2.trans ⟨['*', '*'], rfl⟩)

theorem keywords?_suffix {words : List (List Char)} {s rest : List Char}
    (h : keywords? words s = some rest) : rest <:+ s := by
  induction words generalizing s with
  | nil =>
    cases h
    exact List.suffix_refl _
  | cons word more ih =>
    cases more with
    | nil => exact keyword?_suffix h
    | cons next more =>
      simp only [keywords?, Option.bind_eq_bind, Option.bind_eq_some_iff] at h
      obtain ⟨u, hu, v, hv, h⟩ := h
      exact (ih h).trans ((blanks?_suffix hv).trans (keyword?_suffix hu))

/-- The value of a label holds characters of its line, or is a colon. -/
theorem mem_metadata? {words : List (List Char)} {line value : List Char}
    (h : metadata? words line = some value) {c : Char} (hc : c ∈ value) : c ∈ line ∨ c = ':' := by
  obtain ⟨t, ht, hm⟩ := firstMatch?_eq_some h
  simp only [metadataHere?, Option.bind_eq_bind, Option.bind_eq_some_iff] at hm
  obtain ⟨rest, hr, hm⟩ := hm
  have hrest : rest <:+ line := (boldLabel?_suffix (fun _ _ => keywords?_suffix) hr).trans ht
  split at hm
  · next d more hd =>
    cases hm
    have hm := mem_of_mem_trim hc
    rw [← hd] at hm
    exact .inl (hrest.mem ((skipMark_suffix rest).mem hm))
  · split at hm
    · cases hm
    · split_ifs at hm
      · cases hm
        exact .inr (List.mem_singleton.1 hc)
      · cases hm
        cases hc

theorem not_mem_step? {line value : List Char} {label : Label}
    (h : step? line = some (label, value)) : '\n' ∉ value := by
  obtain ⟨t, -, hs⟩ := firstMatch?_eq_some h
  obtain ⟨l, -, hl⟩ := List.exists_of_findSome?_eq_some hs
  simp only at hl
  split at hl
  · next rest _ =>
    split_ifs at hl with hc
    cases hl
    intro hm
    exact hc (List.contains_iff_mem.2 (mem_of_mem_trim hm))
  · cases hl

theorem not_mem_priority? {line word : List Char} (h : priority? line = some word) :
    '\n' ∉ word := by
  obtain ⟨t, -, hp⟩ := firstMatch?_eq_some h
  simp only [priorityHere?, Option.bind_eq_bind, Option.bind_eq_some_iff] at hp
  obtain ⟨rest, -, ⟨run, tail⟩, hrun, hw⟩ := hp
  cases hw
  intro hm
  exact absurd (mem_run? hrun _ hm) (by decide)

theorem skipSeparator_suffix (s : List Char) : skipSeparator s <:+ s := by
  unfold skipSeparator
  split
  · split_ifs
    · exact List.suffix_cons _ _
    · exact List.suffix_refl _
  · exact List.suffix_refl _

theorem title_suffix {line : List Char} {h : Heading} (hl : Heading.ofLine? line = some h) :
    h.title <:+ line := by
  simp only [Heading.ofLine?, Option.bind_eq_bind, Option.bind_eq_some_iff] at hl
  obtain ⟨⟨level, r0⟩, h0, r1, h1, r2, h2, ⟨token, r3⟩, h3, he⟩ := hl
  cases he
  have hashes : r0 <:+ line := by
    unfold hashes? at h0
    simp only at h0
    split_ifs at h0
    cases h0
    exact (List.dropWhile_suffix _).trans (skipBlanks_suffix line)
  have title : skipBlanks (skipSeparator (skipBlanks r3)) <:+ r3 :=
    (skipBlanks_suffix _).trans ((skipSeparator_suffix _).trans (skipBlanks_suffix r3))
  have marks : skipBlanks ((skipBlanks r0).dropWhile fun c => c == '*' || c == '_') <:+ r0 :=
    (skipBlanks_suffix _).trans ((List.dropWhile_suffix _).trans (skipBlanks_suffix r0))
  have behind : r3 <:+ r0 :=
    (run?_suffix h3).trans ((blanks?_suffix h2).trans ((keyword?_suffix h1).trans marks))
  exact title.trans (behind.trans hashes)

/-! ## Scenarios -/

theorem not_mem_withoutMarkup_of_not_mem {c : Char} {text : List Char} (h : c ∉ text) :
    c ∉ Markup.withoutMarkup text := by
  intro hm
  have hf := List.mem_of_mem_filter (Markup.mem_of_mem_trimWhile hm)
  exact h ((Markup.without_sublist _).mem hf)

/-- The lines of a block and its heading are lines of the plan. -/
theorem mem_blocksFrom {p : List Char → Prop} {lines : List (List Char)} (h : ∀ line ∈ lines, p line)
    {current : Option Block}
    (hc : ∀ b ∈ current, (∃ line, p line ∧ Heading.ofLine? line = some b.heading) ∧
      ∀ line ∈ b.lines, p line) :
    ∀ b ∈ Block.blocksFrom current lines,
      (∃ line, p line ∧ Heading.ofLine? line = some b.heading) ∧ ∀ line ∈ b.lines, p line := by
  induction lines generalizing current with
  | nil =>
    intro b hb
    exact hc b (Option.mem_toList.1 hb)
  | cons line lines ih =>
    have hline := h line List.mem_cons_self
    have hlines : ∀ l ∈ lines, p l := fun l hl => h l (List.mem_cons_of_mem _ hl)
    intro b hb
    rw [Block.blocksFrom.eq_def] at hb
    simp only at hb
    split at hb
    · next heading cur hh =>
      rcases List.mem_append.1 hb with hb | hb
      · exact hc b (Option.mem_toList.1 hb)
      · refine ih hlines ?_ b hb
        rintro _ ⟨⟩
        exact ⟨⟨line, hline, hh⟩, by simp⟩
    · exact ih hlines (by simp) b hb
    · next block hh =>
      obtain ⟨hheading, hold⟩ := hc block rfl
      split_ifs at hb
      · rcases List.mem_cons.1 hb with rfl | hb
        · exact ⟨hheading, hold⟩
        · exact ih hlines (by simp) b hb
      · refine ih hlines ?_ b hb
        rintro _ ⟨⟩
        refine ⟨hheading, fun l hl => ?_⟩
        rcases List.mem_append.1 hl with hl | hl
        · exact hold l hl
        · exact List.mem_singleton.1 hl ▸ hline

theorem mem_attributed {current : Group} {labelled : List (Label × List Char)} {s : Step}
    (h : s ∈ Step.attributed current labelled) : (s.label, s.text) ∈ labelled := by
  induction labelled generalizing current with
  | nil => cases h
  | cons p rest ih =>
    obtain ⟨label, text⟩ := p
    rw [Step.attributed] at h
    rcases List.mem_cons.1 h with rfl | h
    · exact List.mem_cons_self
    · exact List.mem_cons_of_mem _ (ih h)

theorem not_mem_step_text {s : Step} {lines : List (List Char)} (h : s ∈ Step.ofLines lines) :
    '\n' ∉ s.text := by
  obtain ⟨line, -, hs⟩ := List.mem_filterMap.1 (mem_attributed (List.mem_of_mem_filter h))
  exact not_mem_step? hs

theorem Scenario.not_mem_texts_ofLines {id : UInt32} {title : String} (ht : '\n' ∉ title.toList)
    (lines : List (List Char)) :
    ∀ text ∈ (Scenario.ofLines id title lines).texts, '\n' ∉ text.toList := by
  have texts : ∀ l : Label, ∀ text ∈ ((Step.ofLines lines).filter (·.label == l)).map
      fun s => String.ofList s.text, '\n' ∉ text.toList := by
    intro l text hm
    obtain ⟨s, hs, rfl⟩ := List.mem_map.1 hm
    rw [String.toList_ofList]
    exact not_mem_step_text (List.mem_of_mem_filter hs)
  intro text hm
  simp only [Scenario.texts, Scenario.ofLines, List.mem_cons, List.mem_append] at hm
  rcases hm with rfl | rfl | ((hm | hm) | hm) | hm
  · exact ht
  · cases hp : lines.findSome? priority? with
    | none =>
      show '\n' ∉ defaultPriority.toList
      decide
    | some word =>
      obtain ⟨line, -, hl⟩ := List.exists_of_findSome?_eq_some hp
      rw [Option.map_some, Option.getD_some, String.toList_ofList]
      exact not_mem_priority? hl
  · exact texts .given text hm
  · exact texts .when text hm
  · exact texts .expected text hm
  · simp only [List.mem_map, List.mem_filter] at hm
    obtain ⟨_, ⟨s, ⟨hs, -⟩, rfl⟩, rfl⟩ := hm
    rw [String.toList_ofList]
    exact not_mem_step_text hs

/-! ## The whole plan -/

theorem Metadata.not_mem_find {lines : List (List Char)} (h : ∀ line ∈ lines, '\n' ∉ line)
    (words : List String) : '\n' ∉ (Metadata.find words lines).toList := by
  rw [Metadata.find, String.toList_ofList]
  cases hf : (lines.filterMap (metadata? (words.map String.toList))).find?
    fun value => !value.isEmpty with
  | none => exact List.not_mem_nil
  | some value =>
    obtain ⟨line, hl, hv⟩ := List.mem_filterMap.1 (List.mem_of_find?_eq_some hf)
    intro hm
    rcases mem_metadata? hv hm with hm | hm
    · exact h line hl hm
    · exact absurd hm (by decide)

theorem Plan.isSingleLine_read (text : String) : (Plan.read text).IsSingleLine := by
  have hlines : ∀ line ∈ Text.lines text.toList, '\n' ∉ line := fun _ => not_mem_of_mem_lines
  have hscenarios : ∀ (blocks : List Block) (place : ℕ),
      (∀ b ∈ blocks, '\n' ∉ b.heading.title) →
      ∀ s ∈ Block.scenarios place blocks, ∀ t ∈ s.texts, '\n' ∉ t.toList := by
    intro blocks
    induction blocks with
    | nil => intro place _ s hs; cases hs
    | cons b blocks ih =>
      intro place hb s hs
      rcases List.mem_cons.1 hs with rfl | hs
      · refine Scenario.not_mem_texts_ofLines ?_ b.lines
        rw [String.toList_ofList]
        exact not_mem_withoutMarkup_of_not_mem (hb b List.mem_cons_self)
      · exact ih (place + 1) (fun c hc => hb c (List.mem_cons_of_mem _ hc)) s hs
  have htitles : ∀ b ∈ Block.ofLines (Text.lines text.toList), '\n' ∉ b.heading.title := by
    intro b hb hm
    obtain ⟨⟨line, hl, hh⟩, -⟩ :=
      mem_blocksFrom (p := fun line => '\n' ∉ line) hlines (by simp) b hb
    exact hl ((title_suffix hh).mem hm)
  intro t ht
  rw [Plan.texts, List.mem_append] at ht
  rcases ht with ht | ht
  · simp only [List.mem_cons, List.not_mem_nil, or_false] at ht
    rcases ht with rfl | rfl | rfl | rfl
    · exact Metadata.not_mem_find hlines _
    · exact Metadata.not_mem_find hlines _
    · exact Metadata.not_mem_find hlines _
    · exact Metadata.not_mem_find hlines _
  · obtain ⟨s, hs, ht⟩ := List.mem_flatMap.1 ht
    exact hscenarios _ 1 htitles s hs t ht

end Acceptance
