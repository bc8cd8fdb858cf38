import Acceptance.Source.View

/-!
# One pass over the bytes of a source

Both views of a source come from one pass over its bytes. The pass looks at one byte and the next
one, copies the byte or writes a space, notes where lines start, and cuts the text of a comment out
of the source when the comment ends. Every cut can fail, and at the end the written bytes may not be
a text.

The program reads the characters of a source by tokens and never cuts at a byte. That the pass gives
the same views, and that it always gives them, is shown with the results about sources.
-/

namespace Acceptance.Source

open Text

/-- A byte of a hidden token: a line feed stays, every other byte becomes a space. -/
def hiddenByte (b : UInt8) : UInt8 :=
  if b = lineFeedByte then lineFeedByte else spaceByte

/-- Model of `State`: what a byte may belong to. -/
inductive Region where
  | code
  | name
  | lineComment
  | blockComment
  | literal
  deriving DecidableEq

/-- The variables of the loop of `SourceText::new`: what the pass has so far. -/
structure Pass where
  region : Region
  /-- Whether the next byte is the second one of a sign. -/
  skip : Bool
  /-- The offset of the text of the last comment. -/
  textStart : Nat
  /-- The line on which the last comment opens. -/
  openLine : Nat
  lineStarts : List Nat
  masked : List UInt8
  comments : List Comment

namespace Pass

/-- Before the first byte. -/
def start : Pass := ⟨.code, false, 0, 1, [0], [], []⟩

/-- Writes a byte. -/
def write (p : Pass) (b : UInt8) : Pass := { p with masked := p.masked ++ [b] }

/-- Opens a comment with a sign of two bytes at the offset `i`. -/
def enter (p : Pass) (region : Region) (i : Nat) : Pass :=
  { p with region, skip := true, textStart := i + 2, openLine := p.lineStarts.length }.write spaceByte

/-- Notes a comment that has ended. -/
def note (p : Pass) (text : List Char) : Pass :=
  { p with region := .code, comments := p.comments ++ [⟨p.openLine, text⟩] }

/-- Notes a line that starts behind the byte `b` at the offset `i`. -/
def feed (p : Pass) (i : Nat) (b : UInt8) : Pass :=
  if b = lineFeedByte then { p with lineStarts := p.lineStarts ++ [i + 1] } else p

/-- The text of a line comment. -/
def trimReturns (text : List Char) : List Char := (text.reverse.dropWhile (· == '\r')).reverse

/-- Model of the `match` in the loop of `SourceText::new`: reads the byte `b` at the offset `i`,
where `next` is the byte behind it. -/
def read (raw : List Char) (i : Nat) (b : UInt8) (next : Option UInt8) (p : Pass) : Option Pass :=
  match p.region with
  | .code =>
    if b = byte '/' ∧ next = some (byte '/') then some (p.enter .lineComment i)
    else if b = byte '/' ∧ next = some (byte '*') then some (p.enter .blockComment i)
    else if b = byte '\'' then some ({ p with region := .literal }.write spaceByte)
    else if b = byte '"' then some ({ p with region := .name }.write b)
    else some (p.write b)
  | .name =>
    if b = byte '"' ∨ b = lineFeedByte then some ({ p with region := .code }.write b)
    else some (p.write b)
  | .lineComment =>
    if b = lineFeedByte then
      (slice? p.textStart i raw).map fun text => (p.note (trimReturns text)).write b
    else some (p.write spaceByte)
  | .blockComment =>
    if b = byte '*' ∧ next = some (byte '/') then
      (slice? p.textStart i raw).map fun text => { p.note text with skip := true }.write spaceByte
    else some (p.write (hiddenByte b))
  | .literal =>
    if b = byte '\'' ∧ next = some (byte '\'') then some ({ p with skip := true }.write spaceByte)
    else if b = byte '\'' then some ({ p with region := .code }.write spaceByte)
    else some (p.write (hiddenByte b))

/-- Model of the `match` behind the loop of `SourceText::new`: what is left open at the end of the
source is a comment up to there. -/
def finish (raw : List Char) (p : Pass) : Option Pass :=
  match p.region with
  | .lineComment => (dropBytes? p.textStart raw).map fun text => p.note (trimReturns text)
  | .blockComment => (dropBytes? p.textStart raw).map p.note
  | _ => some p

/-- Model of the loop of `SourceText::new`: the pass over the bytes from the offset `i` on. -/
def run (raw : List Char) (i : Nat) (p : Pass) : List UInt8 → Option Pass
  | [] => p.finish raw
  | b :: rest =>
    if p.skip then run raw (i + 1) ({ p with skip := false }.write spaceByte) rest
    else ((p.feed i b).read raw i b rest.head?).bind fun p => run raw (i + 1) p rest

end Pass

/-- Model of `SourceText::new`: the line starts and the views of a source, if no cut fails and the
bytes written are a text. -/
def views? (raw : List Char) : Option (List Nat × Source) := do
  let p ← Pass.start.run raw 0 (utf8 raw)
  let masked ← decode? p.masked
  return (p.lineStarts, ⟨raw, masked, p.comments⟩)

end Acceptance.Source
