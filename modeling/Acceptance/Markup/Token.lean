import Acceptance.Markup.Emphasis
import Acceptance.Markup.Passage

/-!
# Tokens of running text

The tokens of a passage are what may carry structure in it: runs of marks that can open or close
emphasis, runs of ticks, angle brackets and square brackets. A backslash takes the meaning from the
punctuation character behind it, but ticks stay ticks.
-/

namespace Acceptance.Markup

open Text

variable {text : List Char}

/-- The character that encloses code. -/
def tick : Char := '\x60'

/-- What a token is. -/
inductive TokenKind (text : List Char) where
  /-- A run of ticks, and whether a backslash stands in front of it. -/
  | ticks (count : Nat) (escaped : Bool)
  /-- An opening angle bracket. -/
  | angle (place : Place text)
  /-- An opening square bracket, and whether it opens an image. -/
  | opening (image : Bool)
  /-- A closing square bracket. -/
  | closing (place : Place text)
  | run (r : Run text)

/-- A token and the content behind it. -/
structure Token (text : List Char) where
  kind : TokenKind text
  rest : List (Place text)

/-- The length of the run of a character at the start of the content. -/
def runLength (c : Char) (s : List (Place text)) : Nat :=
  (s.takeWhile (·.char == c)).length

/-- What starts at a place behind the character `before`, and how many more places it takes. -/
def tokenAt (before : Option Char) (p : Place text) (rest : List (Place text)) :
    Option (TokenKind text) × Nat :=
  let next := rest.head?.map (·.char)
  if p.char == '\\' then
    if next == some tick then
      let count := runLength tick rest
      (some (.ticks count true), count)
    else if next.any isAsciiPunctuation then (none, 1)
    else (none, 0)
  else if p.char == tick then
    let more := runLength tick rest
    (some (.ticks (more + 1) false), more)
  else if p.char == '<' then
    if next == some '\\' then (none, 0) else (some (.angle p), 0)
  else if p.char == '!' then
    if next == some '[' then (some (.opening true), 1) else (none, 0)
  else if p.char == '[' then (some (.opening false), 0)
  else if p.char == ']' then (some (.closing p), 0)
  else if p.char == '*' || p.char == '_' then
    let more := runLength p.char rest
    match Run.ofMarks? before ((p :: rest.take more).filterMap Mark.ofPlace?) with
    | some r => (if r.canOpen || r.canClose then some (.run r) else none, more)
    | none => (none, more)
  else (none, 0)

/-- The tokens of what is left of the content behind the character `before`, where the first `skip`
places belong to the token before. -/
def tokensFrom (before : Option Char) : (skip : Nat) → List (Place text) → List (Token text)
  | _, [] => []
  | skip + 1, p :: rest => tokensFrom (some p.char) skip rest
  | 0, p :: rest =>
    let (kind?, more) := tokenAt before p rest
    match kind? with
    | some kind => ⟨kind, rest.drop more⟩ :: tokensFrom (some p.char) more rest
    | none => tokensFrom (some p.char) more rest

/-- The tokens of running text, from left to right. -/
def tokens (content : List (Place text)) : List (Token text) :=
  tokensFrom none 0 content

end Acceptance.Markup
