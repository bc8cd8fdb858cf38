import Acceptance.Markup.Ascii
import Acceptance.Text.Blank
import Acceptance.Text.Case
import Acceptance.Text.Punctuation

/-!
# Links

A link text in brackets is followed by a target in parentheses, or by a label that some definition
of the document introduces. A label has at most 999 characters, holds no opening bracket, and labels
that differ in case or in the amount of blanks are the same.
-/

namespace Acceptance.Markup

open Text

/-! ## Labels -/

/-- The characters of a label up to its closing bracket, and the text behind the bracket. A
backslash keeps the character behind it. -/
def labelFrom? : Nat → List Char → Option (List Char × List Char)
  | 0, _ => none
  | _ + 1, [] => none
  | _ + 1, '[' :: _ => none
  | _ + 1, ']' :: s => some ([], s)
  | _ + 1, ['\\'] => none
  | 1, '\\' :: _ => none
  | room + 2, '\\' :: c :: s =>
    match labelFrom? room s with
    | some (label, rest) => some ('\\' :: c :: label, rest)
    | none => none
  | room + 1, c :: s =>
    match labelFrom? room s with
    | some (label, rest) => some (c :: label, rest)
    | none => none

/-- The text with one space for each run of blanks and line ends. -/
def squeezed : List Char → List Char
  | [] => []
  | c :: s =>
    if isGap c then
      match squeezed s with
      | ' ' :: rest => ' ' :: rest
      | rest => ' ' :: rest
    else c :: squeezed s

/-- The form of a label by which it is looked up: in folded case, with one space between its words
and none at the ends. -/
def foldedLabel (label : List Char) : List Char :=
  let fold (c : Char) : List Char := ((lowerChar c).flatMap upperChar).flatMap lowerChar
  (trimWhile (· == ' ') (squeezed label)).flatMap fold

/-- The label that starts here with its opening bracket, and the text behind it. A label must not be
blank. -/
def label? (s : List Char) : Option (List Char × List Char) :=
  match s with
  | '[' :: s =>
    match labelFrom? 1000 s with
    | some (label, rest) => if label.all isGap then none else some (foldedLabel label, rest)
    | none => none
  | _ => none

/-! ## Targets -/

/-- The text behind a destination whose opening angle bracket has been read. -/
def bracketedDestination? : List Char → Option (List Char)
  | [] => none
  | '>' :: s => some s
  | '\\' :: c :: s =>
    if isAsciiPunctuation c then bracketedDestination? s
    else bracketedDestination? (c :: s)
  | c :: s => if isLineEnd c || c == '<' then none else bracketedDestination? s

/-- The text behind a destination without brackets, `depth` parentheses deep. Its parentheses are
balanced and nested no deeper than `limit + 1`, and it ends at a space or control character. -/
def bareDestination? (limit : Nat) : (depth : Nat) → List Char → Option (List Char)
  | depth, [] => if depth = 0 then some [] else none
  | depth, '\\' :: c :: s =>
    if isAsciiPunctuation c then bareDestination? limit depth s
    else bareDestination? limit depth (c :: s)
  | depth, c :: s =>
    if c.toNat ≤ 32 then if depth = 0 then some (c :: s) else none
    else if c == '(' then if depth ≤ limit then bareDestination? limit (depth + 1) s else none
    else if c == ')' then
      match depth with
      | 0 => some (c :: s)
      | depth + 1 => bareDestination? limit depth s
    else bareDestination? limit depth s

/-- The text behind a destination, which may be empty. -/
def destination? (limit : Nat) (s : List Char) : Option (List Char) :=
  match s with
  | '<' :: s => bracketedDestination? s
  | _ => bareDestination? limit 0 s

/-- How a backslash counts in a title. -/
structure TitleEscape where
  /-- Whether it hides the character behind it. -/
  hides : Char → Bool
  /-- Whether it counts at the start of a line. -/
  atLineStart : Bool

/-- The text behind a title that is closed by the given character. -/
def titleFrom? (opening closing : Char) (escape : TitleEscape) : List Char → Option (List Char)
  | [] => none
  | '\\' :: c :: s =>
    if escape.hides c then titleFrom? opening closing escape s
    else titleFrom? opening closing escape (c :: s)
  | c :: '\\' :: d :: s =>
    if c == closing then some ('\\' :: d :: s)
    else if c == opening then none
    else if isLineEnd c && isAsciiPunctuation d && !escape.atLineStart then
      titleFrom? opening closing escape (d :: s)
    else titleFrom? opening closing escape ('\\' :: d :: s)
  | c :: s =>
    if c == closing then some s
    else if c == opening then none
    else titleFrom? opening closing escape s

/-- The text behind a title in quotes or parentheses. -/
def title? (escape : TitleEscape) : List Char → Option (List Char)
  | [] => none
  | c :: s =>
    if c == '"' || c == '\'' then titleFrom? c c escape s
    else if c == '(' then titleFrom? '(' ')' escape s
    else none

/-- The text behind blanks, at most one line end and more blanks. -/
def skipSeparator (s : List Char) : List Char :=
  skipSpaces ((behindLineEnd? (skipSpaces s)).getD (skipSpaces s))

/-- How deep parentheses may stand in the destination of a link. -/
def linkDepth : Nat := 32

/-- In the title of a link a backslash hides punctuation, but not at the start of a line. -/
def linkEscape : TitleEscape :=
  ⟨isAsciiPunctuation, false⟩

/-- The text behind the target of a link in parentheses. -/
def target? (s : List Char) : Option (List Char) := do
  let rest ← behind? '(' s
  let rest ← destination? linkDepth (skipSeparator rest)
  let rest := skipSeparator rest
  match title? linkEscape rest with
  | some rest => behind? ')' (skipSeparator rest)
  | none => behind? ')' rest

/-! ## Definitions -/

/-- Blanks with at most one line end in them, not up to the end of the text: whether there was a
line end, and the text behind. -/
def definitionGap? (s : List Char) : Option (Bool × List Char) :=
  match skipSpaces s with
  | [] => none
  | c :: rest =>
    if isLineEnd c then
      match (behindLineEnd? (c :: rest)).map skipSpaces with
      | some (d :: rest) => if isLineEnd d then none else some (true, d :: rest)
      | _ => none
    else some (false, c :: rest)

/-- How deep parentheses may stand in the destination of a definition. -/
def definitionDepth : Nat := 1

/-- In the title of a definition a backslash hides whatever stands behind it on its line. -/
def definitionEscape : TitleEscape :=
  ⟨fun c => !isLineEnd c, true⟩

/-- The definition at the start of a paragraph: its label and the text behind its last line. The
label, a colon, a destination and perhaps a title stand apart from each other, and nothing else
stands on the last line. -/
def definition? (s : List Char) : Option (List Char × List Char) := do
  let (label, rest) ← label? s
  let (_, start) ← definitionGap? (← behind? ':' rest)
  let rest ← destination? definitionDepth start
  guard (rest.length ≠ start.length)
  match definitionGap? rest with
  | none => return (label, ← behindBlankLine? rest)
  | some (broken, next) =>
    guard (next.length ≠ rest.length)
    match (title? definitionEscape next).bind behindBlankLine? with
    | some rest => return (label, rest)
    | none => if broken then return (label, ← behindBlankLine? rest) else none

end Acceptance.Markup
