import Acceptance.Plan.Heading

/-!
# Scenario blocks

The heading of a scenario opens a block. The next scenario heading, a thematic break or a higher
heading closes it; the lines behind the latter two belong to no block until the next scenario
heading.

Results:
* `length_blocksFrom`: there is one block for each scenario heading, besides the one that is open.
-/

namespace Acceptance

/-- Model of `ScenarioBlock`: a scenario heading with the lines below it. -/
structure Block where
  heading : Heading
  lines : List (List Char) := []
  deriving Repr, DecidableEq

namespace Block

/-- Model of the loop of `parse_scenarios`: the blocks that some lines close or open, where
`current` is the block that is open. -/
def blocksFrom (current : Option Block) : List (List Char) → List Block
  | [] => current.toList
  | line :: rest =>
    match Heading.ofLine? line, current with
    | some heading, _ => current.toList ++ blocksFrom (some { heading }) rest
    | none, none => blocksFrom none rest
    | none, some block =>
      if block.heading.isClosedBy line then block :: blocksFrom none rest
      else blocksFrom (some { block with lines := block.lines ++ [line] }) rest

/-- The blocks of a plan, in order. -/
def ofLines (lines : List (List Char)) : List Block :=
  blocksFrom none lines

end Block

/-! ## First laws -/

theorem Block.length_blocksFrom (current : Option Block) (lines : List (List Char)) :
    (blocksFrom current lines).length =
      current.toList.length + lines.countP fun line => (Heading.ofLine? line).isSome := by
  induction lines generalizing current with
  | nil => simp [blocksFrom]
  | cons line rest ih =>
    unfold blocksFrom
    split
    · next h => simp [ih, h]; omega
    · next h => simp [ih, h]
    · next h =>
      split
      · simp [ih, h]; omega
      · simp [ih, h]

end Acceptance
