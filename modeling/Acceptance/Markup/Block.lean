import Acceptance.Markup.Container
import Acceptance.Markup.Leaf
import Acceptance.Markup.Link
import Acceptance.Markup.Passage

/-!
# The blocks of a document

A document is read block by block. The containers that are still open are matched first, then new
ones are opened, and the rest of the line starts a leaf block. Code and HTML are passed over;
headings and paragraphs leave a passage each, and definitions leave their labels.
-/

namespace Acceptance.Markup

variable {text : List Char}

/-- What a document leaves to be read as running text. -/
structure Outline (text : List Char) where
  /-- The containers that are open, the outermost one first. -/
  containers : List Container := []
  /-- Whether the last line opened a list item and nothing has been put into it. -/
  fresh : Bool := false
  /-- The passages of headings and paragraphs, the last one first. -/
  passages : List (Passage text) := []
  /-- The labels that are defined. -/
  labels : List (List Char) := []

/-- The content behind the next line feed. -/
def behindFeed (s : List (Place text)) : List (Place text) :=
  (s.dropWhile (·.char != '\n')).drop 1

/-- The content up to the next line feed. -/
def feedChars (s : List (Place text)) : List Char :=
  spelled (s.takeWhile (·.char != '\n'))

/-! ## Opening containers -/

/-- The list item that starts behind `outer` columns of indentation: the column of its content, and
the place behind the marker. -/
def listItem? (outer : Nat) (c : Cursor text) : Option (Nat × Cursor text) :=
  let line := lineChars c.rest
  match itemMarker? line with
  | none => none
  | some marker =>
    if marker.number.isNone && isRule line then none
    else
      let (gap, behind) := (c.advance marker.width).skip 1
      if gap == 1 || behind.atLineEnd then
        let indent := outer + marker.width + 1
        if (lineChars behind.rest).all isSpace then some (indent, behind)
        else
          let (more, inner) := behind.skip 4
          if more < 4 then some (indent + more, inner) else some (indent, behind)
      else none

/-- Opens the containers that start on the rest of the line: the containers, the place behind, and
whether the last one is a list item that starts with a blank line. -/
def openContainers :
    Nat → List Container → Cursor text → List Container × Cursor text × Bool
  | 0, containers, c => (containers, c, false)
  | fuel + 1, containers, c =>
    let (indent, inner) := c.skip 4
    if indent = 4 then (containers, c, false)
    else
      match listItem? indent inner with
      | some (column, behind) =>
        let containers := containers ++ [.item (some column)]
        if (lineChars behind.rest).all isSpace then (containers, behind, true)
        else openContainers fuel containers behind
      | none =>
        match inner.behindQuote? with
        | some behind => openContainers fuel (containers ++ [.quote]) behind
        | none => (containers, c, false)

/-! ## Blocks without running text -/

/-- The content behind a fenced block, whose opening line has been read. The indentation of the
opening fence does not count in the block. -/
def behindFence (containers : List Container) (fence : Char × Nat) (indent : Nat) :
    Nat → List (Place text) → List (Place text)
  | 0, s => s
  | _, [] => []
  | fuel + 1, s =>
    let (count, c) := matchContainers ⟨s, 0, 0⟩ containers
    if count < containers.length then s
    else
      let (more, inner) := (c.skip indent).2.skip (4 - indent)
      if more < 4 - indent && closesFence fence (lineChars inner.rest) then
        (splitLine inner.rest).2
      else behindFence containers fence indent fuel (behindFeed c.rest)

/-- The content behind indented code, whose first line has been read. -/
def behindIndented (containers : List Container) :
    Nat → List (Place text) → List (Place text)
  | 0, s => s
  | _, [] => []
  | fuel + 1, s =>
    let (count, c) := matchContainers ⟨s, 0, 0⟩ containers
    let (indent, inner) := c.skip 4
    if count < containers.length || !(indent == 4 || inner.atLineEnd) then s
    else behindIndented containers fuel (behindFeed inner.rest)

/-- The content behind a block of HTML, whose next line starts here. It ends behind the line that
holds `stop?`, or without one before a blank line. -/
def behindHtml (containers : List Container) (stop? : Option (List Char)) :
    Nat → List (Place text) → List (Place text)
  | 0, s => s
  | _, [] => []
  | fuel + 1, s =>
    let next := behindFeed s
    let (count, c) := matchContainers ⟨next, 0, 0⟩ containers
    let done :=
      match stop? with
      | some stop => (behindFirst? stop (feedChars s)).isSome
      | none => (lineChars c.rest).all isSpace
    if count < containers.length || done then next
    else behindHtml containers stop? fuel c.rest

/-! ## Paragraphs -/

/-- How a line starts: whether it belongs to all of the containers, up to four columns of
indentation, and the place behind. -/
def lineStart (containers : List Container) (s : List (Place text)) : Bool × Nat × Cursor text :=
  let (count, c) := matchContainers ⟨s, 0, 0⟩ containers
  let (indent, inner) := c.skip 4
  (count == containers.length, indent, inner)

/-- The content behind the underline that stands here. -/
def behindUnderline? (containers : List Container) (s : List (Place text)) :
    Option (List (Place text)) :=
  let (within, indent, c) := lineStart containers s
  if indent < 4 && within && isUnderline (lineChars c.rest) then some (splitLine c.rest).2
  else none

/-- Where the next line of a paragraph starts. A line goes on with the paragraph unless it is blank,
is an underline or starts another block, even if it lacks markers of the containers. -/
def nextOfParagraph? (containers : List Container) (s : List (Place text)) :
    Option (List (Place text)) :=
  let (within, indent, c) := lineStart containers s
  let start := c.skipIndent
  if (behindUnderline? containers s).isSome || start.atLineEnd ||
      (indent < 4 && interrupts within (feedChars c.rest)) then none
  else some start.rest

/-- The lines of a paragraph, each with the content behind it. -/
def paragraphLines (containers : List Container) :
    Nat → List (Place text) → List (List (Place text) × List (Place text))
  | 0, _ => []
  | fuel + 1, s =>
    let (line, rest) := splitLine s
    match nextOfParagraph? containers rest with
    | none => [(line, rest)]
    | some next => (line, rest) :: paragraphLines containers fuel next

/-- The content behind the first `n` characters of some lines. -/
def behindChars : Nat → List (List (Place text) × List (Place text)) → List (Place text)
  | _, [] => []
  | n, (line, rest) :: more =>
    if n ≤ line.length then line.drop n ++ rest else behindChars (n - line.length) more

/-! ## The walk -/

namespace Outline

/-- Reads a definition or a paragraph. -/
def readParagraph (o : Outline text) (s : List (Place text)) :
    Outline text × List (Place text) :=
  let lines := paragraphLines o.containers (s.length + 1) s
  let content := lines.flatMap (·.1)
  match definition? (spelled content) with
  | some (label, behind) =>
    ({ o with labels := label :: o.labels }, behindChars (content.length - behind.length) lines)
  | none =>
    let below := (lines.getLast?.map (·.2)).getD []
    let rest := (behindUnderline? o.containers below).getD below
    ({ o with passages := .ofParagraph content rest :: o.passages }, rest)

/-- Reads the leaf block that starts here, behind `indent` columns of indentation. -/
def readLeaf (o : Outline text) (indent : Nat) (s : List (Place text)) :
    Outline text × List (Place text) :=
  let line := lineChars s
  let html (stop? : Option (List Char)) : Outline text × List (Place text) :=
    (o, behindHtml o.containers stop? (s.length + 1) s)
  let other (_ : Unit) : Outline text × List (Place text) :=
    if isRule line then (o, (splitLine s).2)
    else
      match headingMark? line, fence? (feedChars s) with
      | some level, _ =>
        let (line, rest) := splitLine s
        ({ o with passages := .ofHeading (line.drop level) rest :: o.passages }, rest)
      | none, some fence =>
        (o, behindFence o.containers fence indent (s.length + 1) (behindFeed s))
      | none, none => o.readParagraph s
  match line with
  | '<' :: inner =>
    match htmlEnd? inner with
    | some stop => html (some stop)
    | none => if isBlockTag inner || isLoneTag inner then html none else other ()
  | _ => other ()

/-- Reads one line, and the block that starts on it. -/
def step (o : Outline text) (s : List (Place text)) : Outline text × List (Place text) :=
  let (count, c) := matchContainers ⟨s, 0, 0⟩ o.containers
  let (containers, c, opened) := openContainers s.length (o.containers.take count) c
  if opened then ({ o with containers, fresh := true }, (splitLine c.rest).2)
  else if (lineChars c.rest).all isSpace then
    let containers :=
      match o.fresh, containers.getLast? with
      | true, some (.item _) => containers.dropLast ++ [.item none]
      | _, _ => containers
    ({ o with containers }, (splitLine c.rest).2)
  else
    let o := { o with containers, fresh := false }
    let (indent, inner) := c.skip 4
    if indent = 4 then
      (o, behindIndented containers (s.length + 1) (behindFeed inner.rest))
    else o.readLeaf indent inner.rest

/-- Reads blocks until nothing is left. -/
def readAll : Nat → Outline text → List (Place text) → Outline text
  | 0, o, _ => o
  | _, o, [] => o
  | fuel + 1, o, s =>
    let (o, rest) := o.step s
    readAll fuel o rest

end Outline

/-- The outline of a document. -/
def outline (text : List Char) : Outline text :=
  Outline.readAll (text.length + 1) {} (places text)

end Acceptance.Markup
