import Acceptance.Markup.Link
import Acceptance.Markup.Tag
import Acceptance.Markup.Token

/-!
# Chains of running text

Code, links and HTML take precedence over emphasis. Code ends at the next run of ticks of the same
length; links and HTML end where their own grammar says; the tokens inside are not looked at again.
The text of a link is a chain of its own: a run inside it is never matched with a run outside. A
bracket that forms no link is plain text, and the runs behind it belong to the chain around it. No
link stands in the text of another link. A declaration is read in the text of the whole block, so
the marker of a quote ends it as any other closing angle bracket does.
-/

namespace Acceptance.Markup

variable {text : List Char}

/-- An opening bracket that waits for its closing one. -/
structure Bracket (text : List Char) where
  image : Bool
  /-- Whether it may still open a link. -/
  live : Bool
  /-- The content behind the bracket. -/
  rest : List (Place text)
  /-- The runs since the bracket, the last one first. -/
  runs : List (Run text)

/-- What has been read of running text. -/
structure Reading (text : List Char) where
  /-- The open brackets, the innermost one first. -/
  brackets : List (Bracket text)
  /-- The runs outside all brackets, the last one first. -/
  runs : List (Run text)
  /-- The texts of links. -/
  finished : List (List (Run text))
  /-- The amount of content from which on tokens count; those before it belong to something that
  has been read. -/
  room : Nat

namespace Reading

/-- Adds runs, the last one first, to the innermost bracket or outside all of them. -/
def push (s : Reading text) (runs : List (Run text)) : Reading text :=
  match s.brackets with
  | [] => { s with runs := runs ++ s.runs }
  | b :: more => { s with brackets := { b with runs := runs ++ b.runs } :: more }

/-- Goes on behind a construct that leaves the given amount of content. -/
def skipTo (s : Reading text) (room : Nat) : Reading text :=
  { s with room }

/-- The end of the link whose text the bracket opened and whose closing bracket has just been read
at `place`: a target, or a label that is defined. Without a label of its own, the text of the link
is its label, unless blanks belong to the closing bracket. -/
def linkEnd? (labels : List (List Char)) (p : Passage text) (b : Bracket text)
    (place : Place text) (rest : List Char) : Option (List Char) :=
  let ownLabel (stop : List Char) : Option (List Char) :=
    match label? ('[' :: spelled b.rest) with
    | some (label, behind) =>
      if behind.length == rest.length && !p.isLast place && labels.contains label then some stop
      else none
    | none => none
  match target? rest with
  | some stop => some stop
  | none =>
    match rest with
    | '[' :: ']' :: stop => ownLabel stop
    | _ =>
      match label? rest with
      | some (label, stop) => if labels.contains label then some stop else none
      | none => ownLabel rest

/-- Reads a closing bracket. -/
def close (labels : List (List Char)) (p : Passage text) (s : Reading text) (place : Place text)
    (rest : List Char) : Reading text :=
  match s.brackets with
  | [] => s
  | b :: outer =>
    match if b.live then linkEnd? labels p b place rest else none with
    | none => push { s with brackets := outer } b.runs
    | some stop =>
      let outer := if b.image then outer
        else outer.map fun o => { o with live := o.live && o.image }
      skipTo { s with brackets := outer, finished := b.runs.reverse :: s.finished } stop.length

/-- Reads an opening angle bracket at `place`. -/
def readAngle (p : Passage text) (s : Reading text) (place : Place text)
    (rest : List (Place text)) : Reading text :=
  match angle? (spelled rest) with
  | some stop => s.skipTo stop.length
  | none =>
    let behind := p.textBehind place
    match declaration? behind with
    | some stop =>
      s.skipTo (Passage.behindPosition place (behind.length - stop.length) rest).length
    | none => s

/-- Whether a token is a run of so many ticks. -/
def isTicks (count : Nat) (t : Token text) : Bool :=
  match t.kind with
  | .ticks n _ => n == count
  | _ => false

/-- Reads a token, where `more` stand behind it. -/
def read (labels : List (List Char)) (p : Passage text) (s : Reading text) (t : Token text)
    (more : List (Token text)) : Reading text :=
  match t.kind with
  | .run r => s.push [r]
  | .opening image => { s with brackets := ⟨image, true, t.rest, []⟩ :: s.brackets }
  | .closing place => s.close labels p place (spelled t.rest)
  | .angle place => s.readAngle p place t.rest
  | .ticks n escaped =>
    let count := if escaped then n - 1 else n
    if count == 0 then s
    else
      match more.find? (isTicks count) with
      | some closing => s.skipTo closing.rest.length
      | none => s

/-- Reads tokens; those that belong to something that has been read are passed over. -/
def readAll (labels : List (List Char)) (p : Passage text) (s : Reading text) :
    List (Token text) → Reading text
  | [] => s
  | t :: more =>
    if s.room ≤ t.rest.length then readAll labels p s more
    else readAll labels p (s.read labels p t more) more

/-- The chains: the texts of the links, and all that is outside of them. -/
def chains (s : Reading text) : List (List (Run text)) :=
  ((s.brackets.flatMap (·.runs)) ++ s.runs).reverse :: s.finished

end Reading

/-- The chains of a passage, where the document defines the given labels. -/
def chains (labels : List (List Char)) (p : Passage text) : List (List (Run text)) :=
  (Reading.readAll labels p ⟨[], [], [], p.places.length + 1⟩ (tokens p.places)).chains

/-! ## First laws -/

theorem Reading.finished_push (s : Reading text) (runs : List (Run text)) :
    (s.push runs).finished = s.finished := by
  unfold push
  split <;> rfl

end Acceptance.Markup
