import Acceptance.Markup.Ascii
import Acceptance.Markup.Place

/-!
# Containers of markup

Quotes and list items contain other blocks. A line belongs to a quote if it shows the quote's marker
again, and to an item if it is indented as far as the item's content or blank. Indentation is
counted in columns: a tab reaches to the next multiple of four, and the columns of a tab may be
shared by two containers.
-/

namespace Acceptance.Markup

variable {text : List Char}

/-- The content up to the end of the line and with it, and the content behind. -/
def splitLine : List (Place text) → List (Place text) × List (Place text)
  | [] => ([], [])
  | p :: rest =>
    if p.char == '\n' then ([p], rest)
    else if p.char == '\r' then
      match rest with
      | [] => ([p], [])
      | q :: more => if q.char == '\n' then ([p, q], more) else ([p], q :: more)
    else
      let (line, more) := splitLine rest
      (p :: line, more)

/-- The characters up to the end of the line. -/
def lineChars (s : List (Place text)) : List Char :=
  spelled (s.takeWhile fun p => !isLineEnd p.char)

/-- A place in a line while its indentation is read. -/
structure Cursor (text : List Char) where
  rest : List (Place text)
  column : Nat := 0
  /-- The columns of the last tab that have not been used. -/
  owed : Nat := 0

namespace Cursor

/-- Whether nothing is left on the line. -/
def atLineEnd (c : Cursor text) : Bool :=
  (c.rest.head?.map (·.char)).all isLineEnd

/-- Skips spaces and tabs up to a number of columns: the number that is missing, and the place
behind. -/
def skipFrom : (missing owed column : Nat) → List (Place text) → Nat × Cursor text
  | 0, owed, column, rest => (0, ⟨rest, column, owed⟩)
  | missing + 1, owed, column, [] => (missing + 1, ⟨[], column, owed⟩)
  | missing + 1, owed, column, p :: rest =>
    if p.char == ' ' then skipFrom missing 0 (column + 1) rest
    else if p.char == '\t' then
      let width := 4 - column % 4
      let used := min width (missing + 1)
      skipFrom (missing + 1 - used) (width - used) (column + width) rest
    else (missing + 1, ⟨p :: rest, column, owed⟩)

/-- Skips up to `n` columns of spaces and tabs: the number that was skipped, and the place
behind. -/
def skip (n : Nat) (c : Cursor text) : Nat × Cursor text :=
  let used := min c.owed n
  let (missing, c) := skipFrom (n - used) (c.owed - used) c.column c.rest
  (n - missing, c)

/-- Skips `n` characters. -/
def advance (n : Nat) (c : Cursor text) : Cursor text :=
  { c with rest := c.rest.drop n, column := c.column + n }

/-- Skips the marker of a quote and at most one column behind it. -/
def behindQuote? (c : Cursor text) : Option (Cursor text) :=
  if c.rest.head?.map (·.char) == some '>' then some ((c.advance 1).skip 1).2 else none

/-- Skips all spaces and tabs. -/
def skipIndent (c : Cursor text) : Cursor text :=
  ⟨c.rest.dropWhile fun p => p.char == ' ' || p.char == '\t', c.column, 0⟩

end Cursor

/-- A block that contains other blocks. -/
inductive Container where
  | quote
  /-- A list item whose content starts at the given column; none if it takes no more content. -/
  | item (indent : Option Nat)
  deriving Repr, DecidableEq

/-- The place behind what shows that the line belongs to the container. -/
def Container.behind? (c : Cursor text) : Container → Option (Cursor text)
  | .quote => (c.skip 3).2.behindQuote?
  | .item (some indent) =>
    let (skipped, behind) := c.skip indent
    if skipped == indent || behind.atLineEnd then some behind else none
  | .item none => if c.skipIndent.atLineEnd then some c.skipIndent else none

/-- The number of containers, the outermost one first, to which the line belongs, and the place
behind what shows it. -/
def matchContainers (c : Cursor text) : List Container → Nat × Cursor text
  | [] => (0, c)
  | container :: more =>
    match container.behind? c with
    | none => (0, c)
    | some behind =>
      let (count, c) := matchContainers behind more
      (count + 1, c)

end Acceptance.Markup
