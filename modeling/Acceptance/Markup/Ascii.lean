/-!
# Blanks and line ends of markup

The structure of markup only knows ASCII blanks: tab, vertical tab, form feed and space inside a
line, line feed and carriage return at its end. A carriage return and a line feed behind it end one
line together.
-/

namespace Acceptance.Markup

/-- Whether a character is a blank inside a line. -/
def isSpace (c : Char) : Bool :=
  c == ' ' || c == '\t' || c == '\x0b' || c == '\x0c'

/-- Whether a character ends a line. -/
def isLineEnd (c : Char) : Bool :=
  c == '\n' || c == '\r'

/-- Whether a character is a blank or ends a line. -/
def isGap (c : Char) : Bool :=
  isSpace c || isLineEnd c

/-- The text behind the blanks inside the line. -/
def skipSpaces (s : List Char) : List Char :=
  s.dropWhile isSpace

/-- The text behind the line end that stands here; the end of the text is one too. -/
def behindLineEnd? : List Char → Option (List Char)
  | [] => some []
  | '\r' :: '\n' :: s => some s
  | c :: s => if isLineEnd c then some s else none

/-- The text behind the rest of the line, if that is blank. -/
def behindBlankLine? (s : List Char) : Option (List Char) :=
  behindLineEnd? (skipSpaces s)

/-- The text behind the given character. -/
def behind? (c : Char) : List Char → Option (List Char)
  | [] => none
  | d :: s => if d == c then some s else none

/-- The text behind the given characters. -/
def behindAll? : List Char → List Char → Option (List Char)
  | [], s => some s
  | c :: part, s =>
    match behind? c s with
    | some s => behindAll? part s
    | none => none

/-- The text behind the first place where the given characters stand. -/
def behindFirst? (part : List Char) : List Char → Option (List Char)
  | [] => behindAll? part []
  | c :: s =>
    match behindAll? part (c :: s) with
    | some rest => some rest
    | none => behindFirst? part s

end Acceptance.Markup
