import Acceptance.Source.View
import Acceptance.Text.Letter
import Acceptance.Text.Search
import Acceptance.Text.Word

/-!
# Routines

Procedures and triggers are found line by line on the masked view. A routine opens at its header
line. Its body is delimited by keywords: `begin` and `case` open a level, `end` closes one, and the
routine ends on the line after which no level is open. A header that comes before any such keyword
ends a routine without body on the line before. Attributes stand in brackets before the header, on
its line or on lines of their own; only blank lines may come between.
-/

namespace Acceptance.Source

open Text

/-- The two kinds of routines. -/
inductive RoutineKind where
  | procedure
  | trigger
  deriving Repr, DecidableEq

namespace RoutineKind

/-- The written name of a kind. -/
def key : RoutineKind → String
  | procedure => "procedure"
  | trigger => "trigger"

end RoutineKind

/-- A procedure or trigger with its attributes and its extent. -/
structure Routine where
  /-- The name as written, quotes included. -/
  name : List Char
  kind : RoutineKind
  /-- The names of the attributes before the header. -/
  attributes : List (List Char)
  /-- The line of the last attribute that marks a test. -/
  testLine : Option Nat
  headerLine : Nat
  /-- The line of the closing keyword, or the last line of the source if there is none. -/
  endLine : Nat
  deriving Repr, DecidableEq

namespace Routine

/-- Model of `is_test`: whether the routine is marked as a test. -/
def isTest (r : Routine) : Bool :=
  r.testLine.isSome

/-- Model of `anchor_line`: the line of an issue about the routine as a whole. -/
def anchorLine (r : Routine) : Nat :=
  r.testLine.getD r.headerLine

/-- Model of `Routine::lines`: whether a line lies between the header and the end of the routine. -/
def hasLine (r : Routine) (line : Nat) : Bool :=
  between r.headerLine r.endLine line

end Routine

/-! ## Headers -/

/-- The text after a word that changes the visibility of a procedure, and the blanks behind it. -/
def afterAccess? (s : List Char) : Option (List Char) :=
  match anyKeyword? ["local".toList, "internal".toList, "protected".toList] s with
  | some (_, rest) => blanks? rest
  | none => none

/-- Model of `PROCEDURE_HEADER`: whether a masked line starts the header of a procedure. -/
def isProcedureHeader (masked : List Char) : Bool :=
  let s := skipBlanks masked
  let s := (afterAccess? s).getD s
  ((keyword? "procedure".toList s).bind blanks?).isSome

/-- A piece between two quotes of one kind, quotes included. -/
def quotedPiece? (quote : Char) (s : List Char) : Option (List Char) :=
  match s with
  | c :: rest =>
    if c == quote then
      match rest.dropWhile (· != quote) with
      | _ :: _ => some (c :: rest.takeWhile (· != quote) ++ [quote])
      | [] => none
    else none
  | [] => none

/-- Model of `PROCEDURE_NAME`: the name of a procedure behind its keyword, in double quotes, in
single quotes, or plain. -/
def procedureName? (s : List Char) : Option (List Char) := do
  let rest ← keyword? "procedure".toList s
  let rest ← blanks? rest
  (quotedPiece? '"' rest).orElse fun _ =>
    (quotedPiece? '\'' rest).orElse fun _ => (run? isNameChar rest).map (·.1)

/-- Model of `TRIGGER_HEADER`: the name of the trigger whose header a masked line starts. -/
def triggerName? (masked : List Char) : Option (List Char) := do
  let rest ← keyword? "trigger".toList (skipBlanks masked)
  let rest ← blanks? rest
  let (name, _) ← run? isNameChar rest
  return name

/-- Whether a masked line starts the header of a routine. -/
def isHeader (masked : List Char) : Bool :=
  isProcedureHeader masked || (triggerName? masked).isSome

/-- The name and kind of the routine whose header starts here. A procedure is recognised on the
masked view and its name is read where the raw view first has the keyword. -/
def header? (raw masked : List Char) : Option (List Char × RoutineKind) :=
  if isProcedureHeader masked then
    (firstMatch? procedureName? raw).map fun name => (name, .procedure)
  else (triggerName? masked).map fun name => (name, .trigger)

/-! ## Attributes -/

/-- The text after one attribute list in brackets and the blanks before it. -/
def afterAttribute? (s : List Char) : Option (List Char) :=
  match skipBlanks s with
  | '[' :: rest =>
    match rest.dropWhile fun c => c != ']' && c != '\n' with
    | ']' :: rest => some rest
    | _ => none
  | _ => none

theorem length_of_afterAttribute? {s rest : List Char} (h : afterAttribute? s = some rest) :
    rest.length < s.length := by
  unfold afterAttribute? at h
  split at h
  · next body hs =>
    split at h
    · next tail ht =>
      obtain rfl : tail = rest := by simpa using h
      have h1 : (skipBlanks s).length ≤ s.length := (List.dropWhile_sublist _).length_le
      have h2 := (List.dropWhile_sublist (l := body) fun c => c != ']' && c != '\n').length_le
      rw [ht] at h2
      rw [hs] at h1
      simp only [List.length_cons] at h1 h2
      omega
    · simp at h
  · simp at h

/-- Model of `ATTRIBUTE_PREFIX`: the text after all attribute lists at its start. -/
def afterAttributes (s : List Char) : List Char :=
  match _h : afterAttribute? s with
  | some rest => afterAttributes rest
  | none => s
termination_by s.length
decreasing_by exact length_of_afterAttribute? (by assumption)

/-- Model of `ATTRIBUTE`: the name of the attribute that starts at a bracket. -/
def attributeName? (s : List Char) : Option (List Char × List Char) := do
  let rest ← char? '[' s
  run? Char.isAlpha (skipBlanks rest)

/-- The names of the attributes in a text. -/
def attributeNames (s : List Char) : List (List Char) :=
  (allMatches (fun _ => attributeName?) s).map (·.2)

/-- Whether an attribute marks a test. -/
def marksTest (name : List Char) : Bool :=
  name.map Char.toLower == "test".toList

/-- A line that starts with a bracket, cut behind its attribute lists: the lists, and the rest of
the line. A line without a complete list is all attributes. -/
def splitAttributes (masked : List Char) : List Char × List Char :=
  match afterAttribute? masked with
  | some _ =>
    let rest := afterAttributes masked
    (masked.take (masked.length - rest.length), rest)
  | none => (masked, [])

/-! ## Levels -/

/-- A masked line without its closed quoted names; `held` has the characters of an open one in
reverse. -/
def withoutNamesFrom (held : Option (List Char)) : List Char → List Char
  | [] =>
    match held with
    | some read => '"' :: read.reverse
    | none => []
  | c :: rest =>
    match held with
    | some read =>
      if c == '"' then withoutNamesFrom none rest
      else if c == '\n' then '"' :: read.reverse ++ '\n' :: withoutNamesFrom none rest
      else withoutNamesFrom (some (c :: read)) rest
    | none =>
      if c == '"' then withoutNamesFrom (some []) rest else c :: withoutNamesFrom none rest

/-- Model of the deletion of each `QUOTED_NAME`: a masked line without its closed quoted names. -/
def withoutNames (masked : List Char) : List Char :=
  withoutNamesFrom none masked

/-- Model of `BLOCK_WORD`: the change of level by a keyword that stands here on its own, not behind
a dot or a word character and not before a word character. -/
def levelChange? (before : Option Char) (s : List Char) : Option (Int × List Char) :=
  if before.any fun c => c == '.' || isWordChar c then none
  else
    match anyKeyword? ["begin".toList, "case".toList, "end".toList] s with
    | some (word, rest) =>
      if isEdge rest.head? then some (if word == "end".toList then -1 else 1, rest) else none
    | none => none

/-- Model of `block_delta`: the number of levels that a masked line opens, less the number that it
closes. -/
def blockDelta (masked : List Char) : Int :=
  (allMatches levelChange? (withoutNames masked)).foldl (fun level change => level + change.2) 0

/-! ## The scan -/

/-- Model of the tuple `open` of `scan_routines`: a routine whose end is not reached. -/
structure OpenRoutine where
  /-- The routine as far as its header tells. -/
  routine : Routine
  /-- The number of open levels. -/
  depth : Int
  /-- Whether a line has changed the level already. -/
  started : Bool
  deriving Repr, DecidableEq

/-- The variables of the loop of `scan_routines`: what the lines so far leave for the next line. -/
structure ScanState where
  /-- The attributes that wait for a header. -/
  attributes : List (List Char)
  /-- The line of the last waiting attribute that marks a test. -/
  testLine : Option Nat
  opened : Option OpenRoutine
  deriving Repr, DecidableEq

namespace ScanState

/-- Nothing is open and nothing waits. -/
def start : ScanState := ⟨[], none, none⟩

/-- Model of the loop body of `scan_routines` where no routine is open: the state after a line,
which opens a routine, adds attributes, or takes the waiting ones away unless it is blank. -/
def readOutside (s : ScanState) (line : Line) : ScanState :=
  if (skipBlanks line.masked).head? == some '[' then
    let (lists, rest) := splitAttributes line.masked
    let names := attributeNames lists
    let s := { s with
      attributes := s.attributes ++ names
      testLine := if names.any marksTest then some line.number else s.testLine }
    if allBlank rest then s
    else readHeader s line.number ((dropBytes? (byteLength lists) line.raw).getD []) rest
  else readHeader s line.number line.raw line.masked
where
  /-- The state after the rest of a line that may hold a header. -/
  readHeader (s : ScanState) (number : Nat) (raw masked : List Char) : ScanState :=
    match header? raw masked with
    | some (name, kind) =>
      let routine := ⟨name, kind, s.attributes, s.testLine, number, number⟩
      ⟨[], none, some ⟨routine, 0, false⟩⟩
    | none => if allBlank masked then s else { s with attributes := [], testLine := none }

/-- Model of the loop body of `scan_routines`: the state after a line, and the routine that ends by
it. -/
def read (s : ScanState) (line : Line) : ScanState × Option Routine :=
  match s.opened with
  | some o =>
    let delta := blockDelta line.masked
    if delta ≠ 0 ∨ o.started then
      let depth := o.depth + delta
      if depth ≤ 0 then
        ({ s with opened := none }, some { o.routine with endLine := line.number })
      else ({ s with opened := some ⟨o.routine, depth, true⟩ }, none)
    else if isHeader line.masked then
      let ended := { o.routine with endLine := max (line.number - 1) o.routine.headerLine }
      (readOutside { s with opened := none } line, some ended)
    else (s, none)
  | none => (readOutside s line, none)

/-- Model of `scan_routines` behind its loop: the routine that the end of the source completes,
where `last` is the number of its last line. -/
def finish (s : ScanState) (last : Nat) : Option Routine :=
  s.opened.map fun o => { o.routine with endLine := max last o.routine.headerLine }

/-- The routines that end by the lines from here on. -/
def scan (s : ScanState) (last : Nat) : List Line → List Routine
  | [] => (s.finish last).toList
  | line :: rest =>
    match s.read line with
    | (s, ended) => ended.toList ++ scan s line.number rest

end ScanState

/-- Model of `scan_routines`: the procedures and triggers of a source, in order. -/
def routines (s : Source) : List Routine :=
  ScanState.start.scan 0 s.lines

end Acceptance.Source
