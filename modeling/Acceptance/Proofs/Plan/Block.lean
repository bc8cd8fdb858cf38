import Mathlib.Data.List.Basic
import Acceptance.Plan.Read

/-!
# Blocks of a plan in parts

Only a scenario heading opens a block. Lines that neither open nor close one add to the block that is
open, and lines that say nothing can be left out of it. A line that closes every block cuts a plan in
two: the blocks of what follows do not depend on what was open.

Main results:

* `Block.blocksFrom_before`: lines in front of the first heading.
* `Block.blocksFrom_body`: the lines of one block.
* `Block.blocksFrom_filter`: lines that are left out.
* `Block.blocksFrom_break`: a line that closes every block.
-/

namespace Acceptance

open Text

/-! ## Kinds of lines -/

/-- Whether a line is neither a heading nor a break. -/
structure IsBodyLine (line : List Char) : Prop where
  no_heading : hashes? line = none
  no_break : isThematicBreak line = false

namespace IsBodyLine

variable {line : List Char}

theorem ofLine?_eq (h : IsBodyLine line) : Heading.ofLine? line = none := by
  rw [Heading.ofLine?, h.no_heading]
  rfl

theorem isClosedBy_eq (h : IsBodyLine line) (heading : Heading) :
    heading.isClosedBy line = false := by
  rw [Heading.isClosedBy, headingLevel?, h.no_heading, h.no_break]
  rfl

end IsBodyLine

/-- A heading has a hash sign in front. -/
theorem hashes?_eq_none {line : List Char} (h : (skipBlanks line).head? ≠ some '#') :
    hashes? line = none := by
  have hlevel : (skipBlanks line).takeWhile (· == '#') = [] := by
    cases hs : skipBlanks line with
    | nil => rfl
    | cons c s =>
      rw [hs, List.head?_cons] at h
      exact List.takeWhile_cons_of_neg (by simpa using h)
  unfold hashes?
  simp only [hlevel]
  exact if_neg (by simp)

namespace Block

/-! ## One line -/

section Line

variable {line : List Char} {heading : Heading} {block : Block}

theorem blocksFrom_heading (h : Heading.ofLine? line = some heading) (current : Option Block)
    (rest : List (List Char)) : blocksFrom current (line :: rest) =
      current.toList ++ blocksFrom (some { heading }) rest := by
  simp only [blocksFrom, h]

theorem blocksFrom_outside (h : Heading.ofLine? line = none) (rest : List (List Char)) :
    blocksFrom none (line :: rest) = blocksFrom none rest := by
  simp only [blocksFrom, h]

theorem blocksFrom_closed (h : Heading.ofLine? line = none)
    (hc : block.heading.isClosedBy line = true) (rest : List (List Char)) :
    blocksFrom (some block) (line :: rest) = block :: blocksFrom none rest := by
  simp only [blocksFrom, h, hc, if_true]

theorem blocksFrom_inside (h : Heading.ofLine? line = none)
    (hc : block.heading.isClosedBy line = false) (rest : List (List Char)) :
    blocksFrom (some block) (line :: rest) =
      blocksFrom (some { block with lines := block.lines ++ [line] }) rest := by
  simp only [blocksFrom, h, hc, Bool.false_eq_true, if_false]

end Line

/-! ## Several lines -/

/-- Lines in front of the first heading belong to no block. -/
theorem blocksFrom_before {before : List (List Char)}
    (h : ∀ line ∈ before, Heading.ofLine? line = none) (rest : List (List Char)) :
    blocksFrom none (before ++ rest) = blocksFrom none rest := by
  induction before with
  | nil => rfl
  | cons line before ih =>
    rw [List.cons_append, blocksFrom_outside (h line List.mem_cons_self)]
    exact ih fun l hl => h l (List.mem_cons_of_mem line hl)

/-- The lines of a body stay in the block that is open. -/
theorem blocksFrom_body {body : List (List Char)} (h : ∀ line ∈ body, IsBodyLine line)
    (block : Block) (rest : List (List Char)) :
    blocksFrom (some block) (body ++ rest) =
      blocksFrom (some { block with lines := block.lines ++ body }) rest := by
  induction body generalizing block with
  | nil => simp
  | cons line body ih =>
    have hline := h line List.mem_cons_self
    have hbody := ih (fun l hl => h l (List.mem_cons_of_mem line hl))
      { block with lines := block.lines ++ [line] }
    rw [List.cons_append, blocksFrom_inside hline.ofLine?_eq (hline.isClosedBy_eq _), hbody,
      List.append_assoc, List.singleton_append]

/-- A block without some of its lines. -/
def keepLines (p : List Char → Bool) (block : Block) : Block :=
  { block with lines := block.lines.filter p }

/-- Lines that are left out of a plan are left out of its blocks. -/
theorem blocksFrom_filter {p : List Char → Bool} {lines : List (List Char)}
    (h : ∀ line ∈ lines, p line = false → IsBodyLine line) (current : Option Block) :
    blocksFrom (current.map (keepLines p)) (lines.filter p) =
      (blocksFrom current lines).map (keepLines p) := by
  induction lines generalizing current with
  | nil => cases current <;> rfl
  | cons line lines ih =>
    have ih := ih fun l hl => h l (List.mem_cons_of_mem line hl)
    have hadd (block : Block) : keepLines p { block with lines := block.lines ++ [line] } =
        { block with lines := block.lines.filter p ++ [line].filter p } := by
      rw [keepLines, List.filter_append]
    cases hp : p line with
    | false =>
      have hline := h line List.mem_cons_self hp
      rw [List.filter_cons_of_neg (by simp [hp])]
      cases current with
      | none => rw [blocksFrom_outside hline.ofLine?_eq, ← ih none, Option.map_none]
      | some block =>
        rw [blocksFrom_inside hline.ofLine?_eq (hline.isClosedBy_eq _), ← ih, Option.map_some,
          Option.map_some, hadd, List.filter_cons_of_neg (by simp [hp]), List.filter_nil,
          List.append_nil]
        rfl
    | true =>
      rw [List.filter_cons_of_pos hp]
      cases hh : Heading.ofLine? line with
      | some heading =>
        have hcurrent : (current.map (keepLines p)).toList = current.toList.map (keepLines p) := by
          cases current <;> rfl
        rw [blocksFrom_heading hh, blocksFrom_heading hh, List.map_append, hcurrent, ← ih]
        rfl
      | none =>
        cases current with
        | none => rw [blocksFrom_outside hh, ← ih none, Option.map_none, blocksFrom_outside hh]
        | some block =>
          cases hc : block.heading.isClosedBy line with
          | true =>
            have hk : (keepLines p block).heading.isClosedBy line = true := hc
            rw [Option.map_some, blocksFrom_closed hh hk, blocksFrom_closed hh hc, List.map_cons,
              ← ih none, Option.map_none]
          | false =>
            have hk : (keepLines p block).heading.isClosedBy line = false := hc
            rw [Option.map_some, blocksFrom_inside hh hk, blocksFrom_inside hh hc, ← ih,
              Option.map_some, hadd, List.filter_cons_of_pos hp, List.filter_nil]
            rfl

/-- Behind a line that closes every block it does not matter which one was open. -/
theorem blocksFrom_break {line : List Char} (h : Heading.ofLine? line = none)
    (hb : isThematicBreak line = true) (lines rest : List (List Char)) (current : Option Block) :
    blocksFrom current (lines ++ line :: rest) = blocksFrom current lines ++ blocksFrom none rest := by
  induction lines generalizing current with
  | nil =>
    cases current with
    | none => exact blocksFrom_outside h rest
    | some block =>
      have hc : block.heading.isClosedBy line = true := by
        rw [Heading.isClosedBy, hb, Bool.true_or]
      exact blocksFrom_closed h hc rest
  | cons l lines ih =>
    rw [List.cons_append]
    cases hh : Heading.ofLine? l with
    | some heading => rw [blocksFrom_heading hh, blocksFrom_heading hh, ih, List.append_assoc]
    | none =>
      cases current with
      | none => rw [blocksFrom_outside hh, blocksFrom_outside hh, ih]
      | some block =>
        cases hc : block.heading.isClosedBy l with
        | true =>
          rw [blocksFrom_closed hh hc, blocksFrom_closed hh hc, ih, List.cons_append]
        | false => rw [blocksFrom_inside hh hc, blocksFrom_inside hh hc, ih]

end Block

end Acceptance
