import Acceptance.Markup.Ascii
import Acceptance.Markup.Place

/-!
# Passages

A passage is running text: the content of one paragraph or heading, without what shows the
containers around it. It knows where its block ends in the text, and which blanks at the end of a
heading belong to what stands last in it.

Results:
* `headingMargin_eq_nil`: a heading on a line without a line end has no such blanks.
-/

namespace Acceptance.Markup

variable {text : List Char}

/-- Running text. -/
structure Passage (text : List Char) where
  places : List (Place text)
  /-- The blanks that belong to what stands last in the passage. -/
  margin : List (Place text)
  /-- The position behind the block. -/
  stop : Nat

/-- The position at which some content starts, which is the end of the text if nothing is left. -/
def startOf (s : List (Place text)) : Nat :=
  match s with
  | [] => text.length
  | p :: _ => p.position

/-- The blanks at the end of a heading that belong to what stands last in it: those in front of the
line end, except for the spaces there. -/
def headingMargin (line : List (Place text)) : List (Place text) :=
  let tail := line.reverse.takeWhile fun p => isGap p.char
  match tail with
  | [] => []
  | p :: _ =>
    if isLineEnd p.char then
      (tail.dropWhile fun p => p.char == ' ' || isLineEnd p.char).reverse
    else []

namespace Passage

/-- The lines of a paragraph, where `rest` is the content behind its block. -/
def ofParagraph (places rest : List (Place text)) : Passage text :=
  ⟨places, [], startOf rest⟩

/-- The line of a heading, where `rest` is the content behind it. -/
def ofHeading (line rest : List (Place text)) : Passage text :=
  ⟨line, headingMargin line, startOf rest⟩

/-- Whether the margin starts behind a place. -/
def isLast (p : Passage text) (place : Place text) : Bool :=
  match p.margin with
  | [] => false
  | blank :: _ => blank.position == place.position + 1

/-- The text from a place to the end of the block, with all that shows the containers of its
lines. -/
def textBehind (p : Passage text) (place : Place text) : List Char :=
  place.after.take (p.stop - (place.position + 1))

/-- The content from the position on that so much text behind a place reaches. -/
def behindPosition (place : Place text) (amount : Nat) (content : List (Place text)) :
    List (Place text) :=
  let last := place.position + amount
  content.dropWhile fun p => p.position ≤ last

end Passage

/-! ## First laws -/

theorem headingMargin_eq_nil {line : List (Place text)}
    (h : line.getLast?.any (fun p => isLineEnd p.char) = false) : headingMargin line = [] := by
  rw [List.getLast?_eq_head?_reverse] at h
  unfold headingMargin
  cases hr : line.reverse with
  | nil => rfl
  | cons p more =>
    have hp : isLineEnd p.char = false := by simpa [hr] using h
    by_cases hg : isGap p.char = true
    · simp [hg, hp]
    · simp [hg]

end Acceptance.Markup
