import Mathlib.Data.List.Basic
import Acceptance.Proofs.Pipeline
import Acceptance.Proofs.Plan.Label

/-!
# Blank lines of a plan

A blank line neither opens nor closes a block and holds no label, so a plan can be read without its
blank lines.

Main results:

* `scenarios?_keepLines`: the scenarios in blocks without their blank lines.
* `Plan.ofLines_filter_isFilled`: the plan on lines without the blank ones.
-/

namespace Acceptance

open Text Markup

/-- Whether a line is not blank. -/
def isFilled (line : List Char) : Bool := !allBlank line

theorem allBlank_of_not_isFilled {line : List Char} (h : isFilled line = false) :
    allBlank line = true := by
  simpa [isFilled] using h

/-- A reader of labels finds nothing on blank lines. -/
theorem filterMap_filter_isFilled {α : Type} {read? : List Char → Option α}
    (h : ∀ line, '*' ∉ line → read? line = none) (lines : List (List Char)) :
    (lines.filter isFilled).filterMap read? = lines.filterMap read? := by
  rw [List.filterMap_filter]
  refine List.filterMap_congr fun line _ => ?_
  cases hf : isFilled line with
  | true => rfl
  | false =>
    have hstar : '*' ∉ line := fun hm =>
      absurd (List.all_eq_true.1 (allBlank_of_not_isFilled hf) _ hm) (by decide)
    exact (h line hstar).symm

theorem Scenario.ofLines_filter_isFilled (id : UInt32) (title : String)
    (lines : List (List Char)) :
    ofLines id title (lines.filter isFilled) = ofLines id title lines := by
  have hsteps := filterMap_filter_isFilled (fun _ => step?_eq_none) lines
  have hpriority : (lines.filter isFilled).findSome? priority? = lines.findSome? priority? := by
    rw [← List.head?_filterMap, ← List.head?_filterMap,
      filterMap_filter_isFilled fun _ => priority?_eq_none]
  simp only [ofLines, Step.ofLines, hsteps, hpriority]

theorem scenarios?_keepLines (spans : List Char → List Span) (place : ℕ) (blocks : List Block) :
    Block.scenarios? spans place (blocks.map (Block.keepLines isFilled)) =
      Block.scenarios? spans place blocks := by
  induction blocks generalizing place with
  | nil => rfl
  | cons block blocks ih =>
    have hblock : (Block.keepLines isFilled block).scenario? spans place =
        block.scenario? spans place := by
      simp only [Block.scenario?, Block.keepLines, Scenario.ofLines_filter_isFilled]
    rw [List.map_cons, Block.scenarios?, hblock, ih, Block.scenarios?]

/-- The blocks on lines without the blank ones. -/
theorem Block.ofLines_filter_isFilled (lines : List (List Char)) :
    ofLines (lines.filter isFilled) = (ofLines lines).map (keepLines isFilled) :=
  blocksFrom_filter (fun _ _ hf => isBodyLine_of_allBlank (allBlank_of_not_isFilled hf)) none

/-- Blank lines say nothing at all. -/
theorem Plan.ofLines_filter_isFilled (lines : List (List Char)) :
    ofLines (lines.filter isFilled) = ofLines lines := by
  have hfind (words : List String) :
      Metadata.find words (lines.filter isFilled) = Metadata.find words lines := by
    rw [Metadata.find, filterMap_filter_isFilled fun _ => metadata?_eq_none, Metadata.find]
  have hscenarios : Block.scenarios 1 (Block.ofLines (lines.filter isFilled)) =
      Block.scenarios 1 (Block.ofLines lines) := by
    have := scenarios?_keepLines emphasisSpans 1 (Block.ofLines lines)
    rw [← Block.ofLines_filter_isFilled, Block.scenarios?_emphasisSpans,
      Block.scenarios?_emphasisSpans] at this
    exact Option.some.inj this
  simp only [ofLines, Metadata.ofLines, hfind, hscenarios]

end Acceptance
