/-!
# Tokens of an AL source

A source is read from left to right into comments, string literals, quoted names and single
characters of code. A line comment ends before the next line feed, a block comment behind the next
closing sign; in a literal two quotes in a row stand for one, and any other quote closes it; a
quoted name ends with the next double quote or at the line feed. What is open at the end of the
source reaches to the end.

Masking a token hides comments and literals: every byte of their UTF-8 form becomes a space, line
feeds stay. So the masked source has the same byte offsets and line numbers.

Results:
* `flatMap_written_tokens`: the tokens written one after the other are the source.
* `hide_append`: hiding works character by character.
-/

namespace Acceptance.Source

/-- A token of a source. -/
inductive Token where
  /-- A character of code. -/
  | code (c : Char)
  /-- A name in double quotes, from its opening quote to the quote or line feed that ends it. -/
  | name (written : List Char)
  /-- The text between the two slashes and the end of the line. -/
  | lineComment (body : List Char)
  /-- The text between the opening and the closing sign, if there is a closing one. -/
  | blockComment (body : List Char) (closed : Bool)
  /-- The text between the quotes, doubled quotes as written. -/
  | literal (body : List Char) (closed : Bool)
  deriving Repr, DecidableEq

namespace Token

/-- The token as it stands in the source. -/
def written : Token → List Char
  | code c => [c]
  | name written => written
  | lineComment body => '/' :: '/' :: body
  | blockComment body true => '/' :: '*' :: body ++ ['*', '/']
  | blockComment body false => '/' :: '*' :: body
  | literal body true => '\'' :: body ++ ['\'']
  | literal body false => '\'' :: body

end Token

/-! ## Reading tokens -/

/-- Model of `State`: what is being read, with the characters read so far in reverse. -/
inductive Mode where
  | code
  | name (read : List Char)
  | lineComment (read : List Char)
  | blockComment (read : List Char)
  | literal (read : List Char)
  deriving Repr, DecidableEq

/-- The token that the end of the source completes. -/
def Mode.finish : Mode → List Token
  | code => []
  | name read => [.name read.reverse]
  | lineComment read => [.lineComment read.reverse]
  | blockComment read => [.blockComment read.reverse false]
  | literal read => [.literal read.reverse false]

/-- The tokens of the rest of a source. -/
def tokensFrom : Mode → List Char → List Token
  | mode, [] => mode.finish
  | .code, '/' :: '/' :: rest => tokensFrom (.lineComment []) rest
  | .code, '/' :: '*' :: rest => tokensFrom (.blockComment []) rest
  | .code, '\'' :: rest => tokensFrom (.literal []) rest
  | .code, '"' :: rest => tokensFrom (.name ['"']) rest
  | .code, c :: rest => .code c :: tokensFrom .code rest
  | .name read, c :: rest =>
    if c == '"' || c == '\n' then .name (c :: read).reverse :: tokensFrom .code rest
    else tokensFrom (.name (c :: read)) rest
  | .lineComment read, '\n' :: rest =>
    .lineComment read.reverse :: .code '\n' :: tokensFrom .code rest
  | .lineComment read, c :: rest => tokensFrom (.lineComment (c :: read)) rest
  | .blockComment read, '*' :: '/' :: rest =>
    .blockComment read.reverse true :: tokensFrom .code rest
  | .blockComment read, c :: rest => tokensFrom (.blockComment (c :: read)) rest
  | .literal read, '\'' :: '\'' :: rest => tokensFrom (.literal ('\'' :: '\'' :: read)) rest
  | .literal read, '\'' :: rest => .literal read.reverse true :: tokensFrom .code rest
  | .literal read, c :: rest => tokensFrom (.literal (c :: read)) rest

/-- The tokens of a source. -/
def tokens (s : List Char) : List Token :=
  tokensFrom .code s

/-! ## Masking -/

/-- Spaces in place of the bytes of a text; line feeds stay. -/
def hide (s : List Char) : List Char :=
  s.flatMap fun c => if c == '\n' then ['\n'] else List.replicate c.utf8Size ' '

namespace Token

/-- The token as it stands in the masked source. -/
def masked : Token → List Char
  | code c => [c]
  | name written => written
  | t => hide t.written

/-- The text of a comment. The carriage returns at the end of a line comment do not belong to
it. -/
def comment? : Token → Option (List Char)
  | lineComment body => some (body.reverse.dropWhile (· == '\r')).reverse
  | blockComment body _ => some body
  | _ => none

end Token

/-! ## First laws -/

/-- The characters that a mode has read already. -/
def Mode.written : Mode → List Char
  | code => []
  | name read => read.reverse
  | lineComment read => '/' :: '/' :: read.reverse
  | blockComment read => '/' :: '*' :: read.reverse
  | literal read => '\'' :: read.reverse

theorem flatMap_written_tokensFrom (mode : Mode) (s : List Char) :
    (tokensFrom mode s).flatMap Token.written = mode.written ++ s := by
  fun_induction tokensFrom mode s <;>
    simp_all [Mode.finish, Mode.written, Token.written]
  next mode => cases mode <;> simp [Token.written]

theorem flatMap_written_tokens (s : List Char) : (tokens s).flatMap Token.written = s := by
  simp [tokens, flatMap_written_tokensFrom, Mode.written]

theorem hide_append (s t : List Char) : hide (s ++ t) = hide s ++ hide t := by
  simp [hide]

end Acceptance.Source
