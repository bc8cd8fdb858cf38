import Acceptance.Json.Value

/-!
# Writing JSON

Two layouts of the same value: `compact` without any space, and `pretty` with one member or item a
line, indented by two spaces for each level. Characters are written as they are, except for the
quotation mark, the backslash and the control characters below U+0020.
-/

namespace Acceptance.Json

/-- The lower-case hexadecimal digit of a number below sixteen. -/
def hexDigit (n : Nat) : Char :=
  if n < 10 then Char.ofNat ('0'.toNat + n) else Char.ofNat ('a'.toNat + (n - 10))

/-- A character inside a string literal. -/
def escapeChar (c : Char) : List Char :=
  if c == '"' then ['\\', '"']
  else if c == '\\' then ['\\', '\\']
  else if c == '\n' then ['\\', 'n']
  else if c == '\r' then ['\\', 'r']
  else if c == '\t' then ['\\', 't']
  else if c == '\x08' then ['\\', 'b']
  else if c == '\x0c' then ['\\', 'f']
  else if c.toNat < 32 then
    ['\\', 'u', '0', '0', hexDigit (c.toNat / 16), hexDigit (c.toNat % 16)]
  else [c]

/-- A string literal, quotation marks included. -/
def quoted (s : String) : List Char :=
  '"' :: s.toList.flatMap escapeChar ++ ['"']

/-- The literal of a value that cannot be given: one surrogate without a partner. -/
def brokenLiteral : List Char :=
  ['"', '\\', 'u', 'd', '8', '0', '0', '"']

/-- The text of a value that is neither a list nor an object. -/
def atom : Json → List Char
  | null => ['n', 'u', 'l', 'l']
  | bool true => ['t', 'r', 'u', 'e']
  | bool false => ['f', 'a', 'l', 's', 'e']
  | natural n => Nat.toDigits 10 n
  | number written => written.toList
  | text s => quoted s
  | _ => brokenLiteral

mutual

/-- The value without any space. -/
def compactChars : Json → List Char
  | list items => '[' :: compactItems items
  | object members => '\x7b' :: compactMembers members
  | null => atom null
  | bool b => atom (bool b)
  | natural n => atom (natural n)
  | number written => atom (number written)
  | text s => atom (text s)
  | broken => atom broken

/-- The items of a list and its closing bracket. -/
def compactItems : List Json → List Char
  | [] => [']']
  | [v] => compactChars v ++ [']']
  | v :: more => compactChars v ++ ',' :: compactItems more

/-- The members of an object and its closing brace. -/
def compactMembers : List (String × Json) → List Char
  | [] => ['\x7d']
  | [(name, v)] => quoted name ++ ':' :: compactChars v ++ ['\x7d']
  | (name, v) :: more => quoted name ++ ':' :: compactChars v ++ ',' :: compactMembers more

end

/-- A line end and the indentation of a level. -/
def newLine (level : Nat) : List Char :=
  '\n' :: List.replicate (2 * level) ' '

mutual

/-- The value with one item or member a line, inside `level` lists and objects. -/
def prettyChars (level : Nat) : Json → List Char
  | list [] => ['[', ']']
  | list (v :: more) => '[' :: prettyItems level (v :: more)
  | object [] => ['\x7b', '\x7d']
  | object (m :: more) => '\x7b' :: prettyMembers level (m :: more)
  | null => atom null
  | bool b => atom (bool b)
  | natural n => atom (natural n)
  | number written => atom (number written)
  | text s => atom (text s)
  | broken => atom broken

/-- The items of a list, each on a line of its own, and its closing bracket. -/
def prettyItems (level : Nat) : List Json → List Char
  | [] => newLine level ++ [']']
  | [v] => newLine (level + 1) ++ prettyChars (level + 1) v ++ newLine level ++ [']']
  | v :: more => newLine (level + 1) ++ prettyChars (level + 1) v ++ ',' :: prettyItems level more

/-- The members of an object, each on a line of its own, and its closing brace. -/
def prettyMembers (level : Nat) : List (String × Json) → List Char
  | [] => newLine level ++ ['\x7d']
  | [(name, v)] =>
    newLine (level + 1) ++ quoted name ++ ':' :: ' ' :: prettyChars (level + 1) v ++
      newLine level ++ ['\x7d']
  | (name, v) :: more =>
    newLine (level + 1) ++ quoted name ++ ':' :: ' ' :: prettyChars (level + 1) v ++
      ',' :: prettyMembers level more

end

/-- The compact text of a value. -/
def compact (v : Json) : String :=
  String.ofList (compactChars v)

/-- The indented text of a value. -/
def pretty (v : Json) : String :=
  String.ofList (prettyChars 0 v)

end Acceptance.Json
