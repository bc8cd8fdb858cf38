import Acceptance.Toml.Text

/-!
# Reading configuration

A document is a sequence of lines. A header opens the table that the lines behind it belong to; any
other line gives a key a value. Lists may run over several lines, tables in braces may not.
-/

namespace Acceptance.Toml

/-- The text behind the end of a line, in front of which there may be a comment. The end of the text
ends the last line. -/
def lineEnd? (s : List Char) : Option (List Char) :=
  let behind? (s : List Char) : Option (List Char) := if s.isEmpty then some [] else newLine? s
  match skipSpaces s with
  | '#' :: comment => behind? (comment.dropWhile isPlain)
  | rest => behind? rest

/-- The text behind blanks, line ends and comments. -/
def skipGaps : (inComment : Bool) → List Char → List Char
  | _, [] => []
  | _, '\n' :: s => skipGaps false s
  | _, '\r' :: '\n' :: s => skipGaps false s
  | true, c :: s => if isPlain c then skipGaps true s else c :: s
  | false, c :: s =>
    if c == ' ' || c == '\t' then skipGaps false s
    else if c == '#' then skipGaps true s
    else c :: s

/-- A value that has no parts, and what is behind. -/
def scalar? (s : List Char) : Option (Toml × List Char) :=
  match s with
  | 't' :: 'r' :: 'u' :: 'e' :: rest => some (bool true, rest)
  | 'f' :: 'a' :: 'l' :: 's' :: 'e' :: rest => some (bool false, rest)
  | _ =>
    match text? s with
    | some (body, rest) => some (text (String.ofList body), rest)
    | none => number? s

mutual

/-- A value, and what is behind. The second argument bounds how deep it is nested. -/
def value? : (fuel depth : Nat) → List Char → Option (Toml × List Char)
  | 0, _, _ => none
  | _ + 1, 0, s => scalar? s
  | fuel + 1, depth + 1, s =>
    match s with
    | '[' :: rest =>
      match skipGaps false rest with
      | ']' :: rest => some (list [], rest)
      | rest => (items? fuel depth rest).map fun (items, rest) => (list items, rest)
    | '\x7b' :: rest =>
      match skipSpaces rest with
      | '\x7d' :: rest => some (table .braces [], rest)
      | rest => (members? fuel depth [] rest).map fun (members, rest) =>
        (table .braces members, rest)
    | _ => scalar? s

/-- The items of a list up to its closing bracket. A comma may stand behind the last one. -/
def items? : (fuel depth : Nat) → List Char → Option (List Toml × List Char)
  | 0, _, _ => none
  | fuel + 1, depth, s =>
    match value? fuel depth s with
    | none => none
    | some (v, rest) =>
      match skipGaps false rest with
      | ']' :: rest => some ([v], rest)
      | ',' :: rest =>
        match skipGaps false rest with
        | ']' :: rest => some ([v], rest)
        | rest => (items? fuel depth rest).map fun (items, rest) => (v :: items, rest)
      | _ => none

/-- The members of a table up to its closing brace, where the given ones have been read. -/
def members? : (fuel depth : Nat) → Members → List Char → Option (Members × List Char)
  | 0, _, _, _ => none
  | fuel + 1, depth, members, s =>
    match path? s with
    | none => none
    | some (path, key, rest) =>
      match (sep? '=' rest).bind fun rest => value? fuel depth (skipSpaces rest) with
      | none => none
      | some (v, rest) =>
        match assignPath path key v .braces members, skipSpaces rest with
        | some members, '\x7d' :: rest => some (members, rest)
        | some members, ',' :: rest => members? fuel depth members rest
        | _, _ => none

end

/-! ## Documents -/

/-- The tables that have been read, and the path to the one that is open. -/
structure Document where
  members : Members := []
  current : List String := []

namespace Document

/-- Reads a header. -/
def readHeader? (d : Document) (s : List Char) : Option (Document × List Char) := do
  match s with
  | '[' :: '[' :: s =>
    let (path, key, rest) ← path? s
    let rest ← lineEnd? (← sep? ']' (← sep? ']' rest))
    return (⟨← within false (openNextTable key) path .header d.members, path ++ [key]⟩, rest)
  | '[' :: s =>
    let (path, key, rest) ← path? s
    let rest ← lineEnd? (← sep? ']' rest)
    return (⟨← within false (openTable key) path .header d.members, path ++ [key]⟩, rest)
  | _ => none

/-- Reads a key and its value. -/
def readMember? (d : Document) (s : List Char) : Option (Document × List Char) := do
  let (path, key, rest) ← path? s
  let rest ← sep? '=' rest
  let (v, rest) ← value? (2 * rest.length + 2) maxDepth (skipSpaces rest)
  let members ← within false (assignPath path key v) d.current .header d.members
  return ({ d with members }, ← lineEnd? rest)

/-- Reads lines until nothing is left. -/
def readLines? : Nat → Document → List Char → Option Document
  | 0, _, _ => none
  | fuel + 1, d, s =>
    match skipSpaces s with
    | [] => some d
    | c :: s =>
      match lineEnd? (c :: s) with
      | some rest => readLines? fuel d rest
      | none => do
        let (d, rest) ← if c == '[' then d.readHeader? (c :: s) else d.readMember? (c :: s)
        readLines? fuel d rest

end Document

/-- The table that a document writes. A byte order mark in front does not count. -/
def read? (s : List Char) : Option Toml :=
  let s := (sep? '\ufeff' s).getD s
  (Document.readLines? (s.length + 1) {} s).map fun d => table .header d.members

end Acceptance.Toml
