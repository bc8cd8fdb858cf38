import Acceptance.Source.Token
import Acceptance.Text.Blank
import Acceptance.Text.Bytes
import Acceptance.Text.Lines

/-!
# The views of a source

A source is looked at in two ways, as it is written and masked. The two agree on byte offsets and
on line numbers, so a place found in one is a place in the other. Comments are listed in order,
each with the line on which it opens.

Results:
* `byteLength_masked`: the two views have the same number of bytes.
* `lineAt_zero`: the first character stands on line 1.
-/

namespace Acceptance.Source

open Text

/-- A comment of a source. -/
structure Comment where
  /-- The line on which the comment opens, from 1. -/
  line : Nat
  text : List Char
  deriving Repr, DecidableEq

namespace Comment

/-- Model of `content`: the text behind its leading blanks. -/
def content (c : Comment) : List Char :=
  skipBlanks c.text

end Comment

/-- The number of line feeds in a text. -/
def lineFeeds (s : List Char) : Nat :=
  s.count '\n'

/-- The comments among tokens of which the first stands on the given line. -/
def commentsFrom (line : Nat) : List Token → List Comment
  | [] => []
  | t :: rest =>
    let later := commentsFrom (line + lineFeeds t.written) rest
    match t.comment? with
    | some text => ⟨line, text⟩ :: later
    | none => later

/-- A line of a source in both views. -/
structure Line where
  /-- The number of the line, from 1. -/
  number : Nat
  raw : List Char
  masked : List Char
  deriving Repr, DecidableEq

/-- Lines of the two views side by side, numbered from the given number on. -/
def zipLines (number : Nat) : List (List Char) → List (List Char) → List Line
  | raw :: raws, masked :: maskeds => ⟨number, raw, masked⟩ :: zipLines (number + 1) raws maskeds
  | _, _ => []

/-- The line of the character at a byte offset: one more than the line feeds before it. -/
def lineAt (offset : Nat) : List Char → Nat
  | [] => 1
  | c :: rest =>
    if offset = 0 then 1
    else if c == '\n' then 1 + lineAt (offset - c.utf8Size) rest
    else lineAt (offset - c.utf8Size) rest

/-- Whether a line number lies between two line numbers, both included. -/
def between (first last line : Nat) : Bool :=
  decide (first ≤ line) && decide (line ≤ last)

end Source

/-- Model of `SourceText`: a source with its masked view and its comments. -/
structure Source where
  /-- The source as it is written. -/
  raw : List Char
  /-- The source with comments and literals hidden. -/
  masked : List Char
  comments : List Source.Comment
  deriving Repr, DecidableEq

namespace Source

open Text

/-- The masked view of a source. -/
def mask (s : List Char) : List Char :=
  (tokens s).flatMap Token.masked

/-- The comments of a source. -/
def commentsOf (s : List Char) : List Comment :=
  commentsFrom 1 (tokens s)

/-- The views of a source, as `SourceText::new` gives them. -/
def ofChars (s : List Char) : Source :=
  ⟨s, mask s, commentsOf s⟩

/-- The views of a source. -/
def ofString (s : String) : Source :=
  ofChars s.toList

/-- Model of `SourceText::lines`: the lines of a source. -/
def lines (s : Source) : List Line :=
  zipLines 1 (Text.lines s.raw) (Text.lines s.masked)

/-- Model of `line_of`: the line that a byte offset lies on. -/
def lineOf (s : Source) (offset : Nat) : Nat :=
  lineAt offset s.raw

/-- Model of `comments_in`: the comments that open between two lines, both included. -/
def commentsBetween (s : Source) (first last : Nat) : List Comment :=
  s.comments.filter fun c => between first last c.line

/-! ## First laws -/

@[simp] theorem lineAt_zero (s : List Char) : lineAt 0 s = 1 := by
  cases s <;> simp [lineAt]

@[simp] theorem byteLength_hide (s : List Char) : byteLength (hide s) = byteLength s := by
  induction s with
  | nil => rfl
  | cons c s ih =>
    have hc : hide (c :: s) =
        (if c == '\n' then ['\n'] else List.replicate c.utf8Size ' ') ++ hide s := rfl
    have hr : ∀ n, byteLength (List.replicate n ' ') = n := by
      intro n
      induction n with
      | zero => rfl
      | succ n ihn =>
        rw [List.replicate_succ, byteLength_cons, ihn]
        simp [Char.utf8Size]
        omega
    rw [hc, byteLength_append, ih, byteLength_cons]
    by_cases h : c = '\n'
    · subst h; simp
    · simp [h, hr]

theorem byteLength_masked (s : List Char) : byteLength (mask s) = byteLength s := by
  have key : ∀ ts : List Token,
      byteLength (ts.flatMap Token.masked) = byteLength (ts.flatMap Token.written) := by
    intro ts
    induction ts with
    | nil => rfl
    | cons t ts ih =>
      have ht : byteLength t.masked = byteLength t.written := by
        cases t <;> simp [Token.masked, Token.written]
      simp [ih, ht]
  rw [mask, key, flatMap_written_tokens]

end Acceptance.Source
