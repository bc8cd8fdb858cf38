import Acceptance.Toml.Number

/-!
# Texts and keys in configuration

A text stands in quotation marks, where a backslash escapes, or in apostrophes, where nothing does.
Three of them enclose a text of several lines. Control characters other than the tab have to be
escaped, and a line end is a line feed, alone or behind a carriage return. A key is bare or a text
of one line; dots make a path of keys.
-/

namespace Acceptance.Toml

/-- Whether a character may stand in a comment or a text as it is. -/
def isPlain (c : Char) : Bool :=
  c == '\t' || (decide (32 ≤ c.toNat) && c.toNat != 127)

/-- The text behind spaces and tabs. -/
def skipSpaces (s : List Char) : List Char :=
  s.dropWhile fun c => c == ' ' || c == '\t'

/-- The text behind a line end. -/
def newLine? : List Char → Option (List Char)
  | '\n' :: s => some s
  | '\r' :: '\n' :: s => some s
  | _ => none

/-- The character written by so many hexadecimal digits, and the text behind. -/
def codePoint? (width : Nat) (s : List Char) : Option (Char × List Char) := do
  let ds ← (s.take width).mapM (digitIn? 16)
  guard (ds.length = width)
  let n := ds.foldl (fun n d => n * 16 + d) 0
  guard (n < 0xd800 ∨ (0xe000 ≤ n ∧ n < 0x110000))
  return (Char.ofNat n, s.drop width)

/-- The character that is escaped behind a backslash, and the text behind. -/
def escape? : List Char → Option (Char × List Char)
  | 'b' :: s => some ('\x08', s)
  | 't' :: s => some ('\t', s)
  | 'n' :: s => some ('\n', s)
  | 'f' :: s => some ('\x0c', s)
  | 'r' :: s => some ('\r', s)
  | '"' :: s => some ('"', s)
  | '\\' :: s => some ('\\', s)
  | 'u' :: s => codePoint? 4 s
  | 'U' :: s => codePoint? 8 s
  | _ => none

/-- The text up to the closing quote, and what is behind. Backslashes escape in quotation marks. -/
def lineText? (quote : Char) : Nat → List Char → Option (List Char × List Char)
  | 0, _ => none
  | _, [] => none
  | fuel + 1, c :: s =>
    if c == quote then some ([], s)
    else if c == '\\' && quote == '"' then do
      let (d, s) ← escape? s
      let (body, rest) ← lineText? quote fuel s
      return (d :: body, rest)
    else if isPlain c then (lineText? quote fuel s).map fun (body, rest) => (c :: body, rest)
    else none

/-- The text behind the blanks of a continued line: spaces, a line end, and all blanks and line ends
after it. -/
def continued? (s : List Char) : Option (List Char) :=
  let rec skip : List Char → List Char
    | [] => []
    | '\r' :: '\n' :: s => skip s
    | c :: s => if c == ' ' || c == '\t' || c == '\n' then skip s else c :: s
  (newLine? (skipSpaces s)).map skip

/-- The text of several lines up to three closing quotes, and what is behind. Up to two more quotes
in front of them belong to the text. -/
def blockText? (quote : Char) : Nat → List Char → Option (List Char × List Char)
  | 0, _ => none
  | fuel + 1, s =>
    let count := (s.takeWhile (· == quote)).length
    if 6 ≤ count then none
    else if 3 ≤ count then some (List.replicate (count - 3) quote, s.drop count)
    else if 1 ≤ count then
      (blockText? quote fuel (s.drop count)).map fun (body, rest) =>
        (List.replicate count quote ++ body, rest)
    else
      match newLine? s, s with
      | some s, _ => (blockText? quote fuel s).map fun (body, rest) => ('\n' :: body, rest)
      | none, [] => none
      | none, c :: s =>
        if c == '\\' && quote == '"' then
          match continued? s with
          | some s => blockText? quote fuel s
          | none => do
            let (d, s) ← escape? s
            let (body, rest) ← blockText? quote fuel s
            return (d :: body, rest)
        else if isPlain c then
          (blockText? quote fuel s).map fun (body, rest) => (c :: body, rest)
        else none

/-- A text in quotes of the given kind, whose first quote has been read, and what is behind. A line
end right behind three quotes does not count. -/
def quoted? (quote : Char) (s : List Char) : Option (List Char × List Char) :=
  match s with
  | a :: b :: rest =>
    if a == quote && b == quote then blockText? quote (s.length + 1) ((newLine? rest).getD rest)
    else lineText? quote (s.length + 1) s
  | _ => lineText? quote (s.length + 1) s

/-- A text, and what is behind. -/
def text? : List Char → Option (List Char × List Char)
  | '"' :: s => quoted? '"' s
  | '\'' :: s => quoted? '\'' s
  | _ => none

/-! ## Keys -/

/-- Whether a character may stand in a bare key. -/
def isKeyChar (c : Char) : Bool :=
  c.isAlphanum || c == '-' || c == '_'

/-- A key, and what is behind. -/
def key? : List Char → Option (String × List Char)
  | [] => none
  | c :: s =>
    if c == '"' || c == '\'' then
      (lineText? c (s.length + 1) s).map fun (key, rest) => (String.ofList key, rest)
    else if isKeyChar c then
      some (String.ofList (c :: s.takeWhile isKeyChar), s.dropWhile isKeyChar)
    else none

/-- Keys with dots between them, and what is behind. -/
def keys? : Nat → List Char → Option (List String × List Char)
  | 0, _ => none
  | fuel + 1, s => do
    let (key, rest) ← key? (skipSpaces s)
    match skipSpaces rest with
    | '.' :: rest =>
      let (keys, rest) ← keys? fuel rest
      return (key :: keys, rest)
    | rest => return ([key], rest)

/-- How many keys a path may have, and how deep values may be nested. -/
def maxDepth : Nat := 79

/-- A path of keys, as the keys on the way and the last one, and what is behind. -/
def path? (s : List Char) : Option (List String × String × List Char) := do
  let (keys, rest) ← keys? (s.length + 1) s
  guard (keys.length ≤ maxDepth)
  return (keys.dropLast, ← keys.getLast?, rest)

end Acceptance.Toml
