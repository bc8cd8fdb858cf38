import Mathlib.Data.List.Basic
import Acceptance.CommandLine.Output
import Acceptance.Proofs.Plan.Blank
import Acceptance.Proofs.Plan.Written
import Acceptance.Proofs.Source.Seam

/-!
# The layout of a plan

Scenarios are written one after the other. Reading gives them back in order, with blank lines
anywhere between their lines and with anything but a scenario heading in front.

Main results:

* `blocksFrom_layout`: every scenario is a block.
* `Plan.scenarios_read_planText`: what is written is read back.
* `Plan.scenarios_of_layout`: the same of every text with these lines and every reader of markup.
-/

namespace Acceptance

open Text Markup

/-! ## Plans -/

section Plan

variable {written : List WrittenScenario}

/-- The lines of several scenarios. -/
def layout (written : List WrittenScenario) : List (List Char) :=
  written.flatMap fun s => s.lines.map String.toList

theorem blocksFrom_layout (h : ∀ s ∈ written, s.IsWritable) (current : Option Block) :
    Block.blocksFrom current (layout written) =
      current.toList ++ written.map WrittenScenario.block := by
  induction written generalizing current with
  | nil => cases current <;> rfl
  | cons s written ih =>
    have hs := h s List.mem_cons_self
    have ih := ih fun t ht => h t (List.mem_cons_of_mem s ht)
    have hlines : layout (s :: written) = s.headingLine.toList :: (s.body ++ layout written) := by
      simp [layout, WrittenScenario.lines, WrittenScenario.body]
    rw [hlines, Block.blocksFrom_heading hs.ofLine?_headingLine,
      Block.blocksFrom_body fun _ => WrittenScenario.isBodyLine_of_mem_body, ih, List.map_cons]
    rfl

theorem scenarios?_layout (h : ∀ s ∈ written, s.IsWritable) {spans : List Char → List Span}
    (hs : ∀ s ∈ written, spans s.title.toList = []) (place : ℕ) :
    Block.scenarios? spans place (written.map WrittenScenario.block) =
      some (written.map WrittenScenario.scenario) := by
  induction written generalizing place with
  | nil => rfl
  | cons s written ih =>
    rw [List.map_cons, Block.scenarios?,
      (h s List.mem_cons_self).scenario?_block (hs s List.mem_cons_self),
      ih (fun t ht => h t (List.mem_cons_of_mem s ht)) fun t ht => hs t (List.mem_cons_of_mem s ht)]
    rfl

/-- The blocks of a plan with blank lines, without these. -/
theorem ofLines_layout (h : ∀ s ∈ written, s.IsWritable) {before body : List (List Char)}
    (hbefore : ∀ line ∈ before, Heading.ofLine? line = none)
    (hbody : body.filter isFilled = layout written) :
    (Block.ofLines (before ++ body)).map (Block.keepLines isFilled) =
      written.map WrittenScenario.block := by
  rw [Block.ofLines, Block.blocksFrom_before hbefore, ← Block.ofLines,
    ← Block.ofLines_filter_isFilled, hbody]
  exact blocksFrom_layout h none

end Plan

/-! ## A plan as a text -/

/-- The text of several scenarios. -/
def planText (written : List WrittenScenario) : String :=
  Output.lines (written.flatMap WrittenScenario.lines)

theorem getLast?_append_of_trim {front text : List Char} (hfront : front.getLast? ≠ some '\r')
    (htext : trim text = text) : (front ++ text).getLast? ≠ some '\r' := by
  rw [List.getLast?_append]
  cases hlast : text.getLast? with
  | none => exact hfront
  | some c =>
    rw [← htext, trim_eq_trimEnd_trimStart] at hlast
    have hc := not_isBlank_of_getLast?_trimEnd hlast
    rintro ⟨⟩
    cases hc

theorem WrittenStep.IsWritable.isLine {s : WrittenStep} (h : s.IsWritable) :
    '\n' ∉ s.line.toList ∧ s.line.toList.getLast? ≠ some '\r' := by
  rw [WrittenStep.toList_line, ← List.append_assoc, ← List.append_assoc]
  refine ⟨fun hm => ?_, getLast?_append_of_trim ?_ h.trimmed⟩
  · rcases List.mem_append.1 hm with hm | hm
    · revert hm
      cases s.label <;> decide
    · exact h.no_feed hm
  · cases s.label <;> decide

theorem WrittenScenario.IsWritable.isLine_headingLine {s : WrittenScenario} (h : s.IsWritable) :
    '\n' ∉ s.headingLine.toList ∧ s.headingLine.toList.getLast? ≠ some '\r' := by
  rw [WrittenScenario.toList_headingLine, ← List.append_assoc, ← List.append_assoc]
  refine ⟨fun hm => ?_, getLast?_append_of_trim ?_ h.trimmed⟩
  · rcases List.mem_append.1 hm with hm | hm
    · rcases List.mem_append.1 hm with hm | hm
      · rcases List.mem_append.1 hm with hm | hm
        · exact absurd hm (by decide)
        · exact absurd (isDigit_of_mem_toDigits hm) (by decide)
      · exact absurd hm (by decide)
    · exact h.no_feed hm
  · rw [List.getLast?_append_of_ne_nil _ (by decide)]
    decide

theorem WrittenScenario.IsWritable.isLine_priorityLine {s : WrittenScenario} (h : s.IsWritable) :
    '\n' ∉ s.priorityLine.toList ∧ s.priorityLine.toList.getLast? ≠ some '\r' := by
  rw [WrittenScenario.toList_priorityLine]
  refine ⟨fun hm => ?_, fun hm => ?_⟩
  · rcases List.mem_append.1 hm with hm | hm
    · exact absurd hm (by decide)
    · exact absurd (h.priority_word _ hm) (by decide)
  · rw [List.getLast?_append_of_ne_nil _ h.priority_ne_nil] at hm
    exact absurd (h.priority_word _ (List.mem_of_getLast? hm)) (by decide)

theorem Source.toList_outputLines (lines : List String) :
    (Output.lines lines).toList = joinLines (lines.map String.toList) := by
  simp [Output.lines, Output.line, String.toList_join, joinLines, List.flatMap_map]

/-- The lines of a written plan are read back. -/
theorem lines_planText {written : List WrittenScenario} (h : ∀ s ∈ written, s.IsWritable) :
    Text.lines (planText written).toList = layout written := by
  rw [planText, Source.toList_outputLines, List.map_flatMap]
  refine Source.lines_joinLines fun line hline => ?_
  obtain ⟨s, hs, hline⟩ := List.mem_flatMap.1 hline
  have hs := h s hs
  rcases List.mem_map.1 hline with ⟨text, htext, rfl⟩
  rcases List.mem_cons.1 htext with rfl | htext
  · exact hs.isLine_headingLine
  · rcases List.mem_cons.1 htext with rfl | htext
    · exact hs.isLine_priorityLine
    · obtain ⟨step, hstep, rfl⟩ := List.mem_map.1 htext
      exact (hs.steps step hstep).isLine

/-- What is written is read back. -/
theorem Plan.scenarios_read_planText {written : List WrittenScenario}
    (h : ∀ s ∈ written, s.IsWritable) :
    (Plan.read (planText written)).scenarios = written.map WrittenScenario.scenario := by
  have hnone : ∀ s ∈ written, emphasisSpans s.title.toList = [] := fun s hs =>
    emphasisSpans_eq_nil (h s hs).no_star (h s hs).no_low
  have hscenarios := scenarios?_layout h hnone 1
  rw [Block.scenarios?_emphasisSpans] at hscenarios
  show Block.scenarios 1 (Block.ofLines (Text.lines (planText written).toList)) = _
  rw [lines_planText h, Block.ofLines, blocksFrom_layout h none]
  exact Option.some.inj hscenarios

/-! ## The law -/

/-- Reading undoes the layout, with blank lines anywhere and anything but a scenario heading in
front of it. Nothing is needed of a reader of markup but that it reports no emphasis in a text
without stars and low lines. -/
theorem Plan.scenarios_of_layout {written : List WrittenScenario} (h : ∀ s ∈ written, s.IsWritable)
    {text : String} {before body : List (List Char)}
    (htext : Text.lines text.toList = before ++ body)
    (hbefore : ∀ line ∈ before, Heading.ofLine? line = none)
    (hbody : body.filter isFilled = layout written) :
    (Plan.read text).scenarios = written.map WrittenScenario.scenario ∧
      ∀ spans : List Char → List Span,
        (∀ title : List Char, '*' ∉ title → '_' ∉ title → spans title = []) →
        ∃ p, Plan.read? spans text = some p ∧
          p.scenarios = written.map WrittenScenario.scenario := by
  have hscenarios (spans : List Char → List Span)
      (hspans : ∀ title : List Char, '*' ∉ title → '_' ∉ title → spans title = []) :
      Block.scenarios? spans 1 (Block.ofLines (Text.lines text.toList)) =
        some (written.map WrittenScenario.scenario) := by
    rw [htext, ← scenarios?_keepLines, ofLines_layout h hbefore hbody]
    exact scenarios?_layout h (fun s hs => hspans _ (h s hs).no_star (h s hs).no_low) 1
  constructor
  · have hread := hscenarios emphasisSpans fun _ => emphasisSpans_eq_nil
    rw [Block.scenarios?_emphasisSpans] at hread
    exact Option.some.inj hread
  · intro spans hspans
    rw [Plan.read?]
    simp only [hscenarios spans hspans]
    exact ⟨_, rfl, rfl⟩

/-- A scenario whose texts look like other lines of a plan. -/
def misleadingScenario : WrittenScenario :=
  ⟨7, "Scenario 9: ## of 2 - 3", "Sehr_hoch",
    [⟨.and, "## Scenario 3: no heading"⟩, ⟨.when, "**Then** and **Priority**: Low"⟩, ⟨.and, "---"⟩,
      ⟨.given, "* * *"⟩, ⟨.expected, "- **Given** a step"⟩, ⟨.and, "# 1: *last*"⟩]⟩

/-- A scenario with nothing but the greatest number and a priority. -/
def bareScenario : WrittenScenario := ⟨4294967295, "", "١", []⟩

/-- The scenarios below metadata, with blank lines around each. -/
def misleadingLines : List String :=
  "**Work Item**: 4711" :: "" :: (misleadingScenario.lines ++ " " :: bareScenario.lines ++ ["\t"])

theorem Plan.scenarios_of_layout_misleadingLines :
    (∀ s ∈ [misleadingScenario, bareScenario], s.IsWritable) ∧
      (Plan.read (Output.lines misleadingLines)).scenarios =
        [misleadingScenario, bareScenario].map WrittenScenario.scenario ∧
      ∃ p, Plan.read? emphasisSpans (Output.lines misleadingLines) = some p ∧
        p.scenarios = [misleadingScenario, bareScenario].map WrittenScenario.scenario := by
  have hwritable : ∀ s ∈ [misleadingScenario, bareScenario], s.IsWritable := by decide +kernel
  have hisLine : ∀ line ∈ misleadingLines.map String.toList,
      '\n' ∉ line ∧ line.getLast? ≠ some '\r' := by
    decide +kernel
  have hlines : Text.lines (Output.lines misleadingLines).toList =
      ["**Work Item**: 4711".toList] ++ misleadingLines.tail.map String.toList := by
    rw [Source.toList_outputLines, Source.lines_joinLines hisLine]
    rfl
  have hfront : ∀ line ∈ ["**Work Item**: 4711".toList], Heading.ofLine? line = none := by
    decide +kernel
  have hbody : (misleadingLines.tail.map String.toList).filter isFilled =
      layout [misleadingScenario, bareScenario] := by
    decide +kernel
  obtain ⟨hread, hspans⟩ := Plan.scenarios_of_layout hwritable hlines hfront hbody
  exact ⟨hwritable, hread, hspans emphasisSpans fun _ => emphasisSpans_eq_nil⟩

end Acceptance
