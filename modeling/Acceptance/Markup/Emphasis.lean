import Acceptance.Markup.Place
import Acceptance.Text.Blank
import Acceptance.Text.Punctuation

/-!
# Emphasis

A run is a maximal sequence of one mark character. What stands beside a run decides whether it may
open or close emphasis: it opens towards a character that is not blank, it closes behind one, and
between two words a low line does neither. Runs of a chain are matched from left to right: a closing
run is matched with the nearest run that can open for it, mark by mark from the inside out, and the
runs between the two are left alone from then on. A run that may do both only pairs with lengths
that do not add up to a multiple of three, unless its own length is one.
-/

namespace Acceptance.Markup

open Text

variable {text : List Char}

/-- A maximal sequence of one mark character. -/
structure Run (text : List Char) where
  /-- Its marks from left to right. -/
  marks : List (Mark text)
  char : Char
  canOpen : Bool
  canClose : Bool

namespace Run

/-- Whether a character ends a word: nothing, a blank or a punctuation character. -/
def isEdge (c : Char) : Bool :=
  isBlank c || isPunctuation c

/-- Whether a run may open emphasis between two characters. -/
def opensBetween (char : Char) (before after : Option Char) : Bool :=
  match after with
  | none => false
  | some next =>
    !isBlank next &&
      match before with
      | none => true
      | some last => (char == '*' && !isPunctuation next) || isEdge last

/-- Whether a run may close emphasis between two characters. -/
def closesBetween (char : Char) (before after : Option Char) : Bool :=
  match before with
  | none => false
  | some last =>
    !isBlank last &&
      match after with
      | none => true
      | some next => (char == '*' && !isPunctuation last) || isEdge next

/-- The run with the given marks, where `before` stands in front of it in its passage. -/
def ofMarks? (before : Option Char) (marks : List (Mark text)) : Option (Run text) :=
  match marks.head?, marks.getLast? with
  | some first, some last =>
    let after := last.after.head?
    some ⟨marks, first.char, opensBetween first.char before after,
      closesBetween first.char before after⟩
  | _, _ => none

/-- Whether a run may both open and close emphasis. -/
def isTwoSided (r : Run text) : Bool :=
  r.canOpen && r.canClose

end Run

/-- A run that may still open emphasis. -/
structure OpenRun (text : List Char) where
  char : Char
  /-- The length that the run had at first. -/
  length : Nat
  isTwoSided : Bool
  /-- The marks that are left, the last one first. -/
  marks : List (Mark text)

/-- Whether a run can open emphasis for a closing run. -/
def OpenRun.opensFor (opener : OpenRun text) (closer : Run text) : Bool :=
  opener.char == closer.char &&
    ((!closer.isTwoSided && !opener.isTwoSided) ||
      (closer.marks.length + opener.length) % 3 != 0 || closer.marks.length % 3 == 0)

/-- A piece of emphasis: one mark at each end, or two if it is strong. -/
structure Emphasis (text : List Char) where
  opening : List (Mark text)
  closing : List (Mark text)

/-- The emphasis between the marks of an open run, the last one first, and those of a closing run:
strong as long as there are two marks on both sides. -/
def paired : (opening closing : List (Mark text)) → List (Emphasis text)
  | second :: first :: opening, third :: fourth :: closing =>
    ⟨[first, second], [third, fourth]⟩ :: paired opening closing
  | first :: _, last :: _ => [⟨[first], [last]⟩]
  | _, _ => []

/-- What comes of a closing run. -/
structure Closing (text : List Char) where
  found : List (Emphasis text)
  /-- The marks that are not matched. -/
  left : List (Mark text)
  /-- The runs that are still open. -/
  openers : List (OpenRun text)

/-- Matches the marks of a closing run with the open runs, the nearest one first. Open runs nearer
than one that is matched are dropped. -/
def matchMarks (closer : Run text) : List (Mark text) → List (OpenRun text) → Closing text
  | [], openers => ⟨[], [], openers⟩
  | marks, [] => ⟨[], marks, []⟩
  | marks, opener :: rest =>
    if opener.opensFor closer then
      let found := paired opener.marks marks
      match opener.marks.drop marks.length with
      | [] =>
        let more := matchMarks closer (marks.drop opener.marks.length) rest
        { more with found := found ++ more.found }
      | unmatched => ⟨found, [], { opener with marks := unmatched } :: rest⟩
    else
      let farther := matchMarks closer marks rest
      if farther.found.isEmpty then ⟨[], marks, opener :: rest⟩ else farther

/-- The emphasis that a run closes, and the open runs after it. -/
def matchRun (r : Run text) (openers : List (OpenRun text)) :
    List (Emphasis text) × List (OpenRun text) :=
  let c := if r.canClose then matchMarks r r.marks openers else ⟨[], r.marks, openers⟩
  if c.left.isEmpty || !r.canOpen then (c.found, c.openers)
  else (c.found, ⟨r.char, r.marks.length, r.isTwoSided, c.left.reverse⟩ :: c.openers)

/-- The emphasis in a chain of runs. -/
def emphases (openers : List (OpenRun text)) : List (Run text) → List (Emphasis text)
  | [] => []
  | r :: rest =>
    let (found, openers) := matchRun r openers
    found ++ emphases openers rest

end Acceptance.Markup
