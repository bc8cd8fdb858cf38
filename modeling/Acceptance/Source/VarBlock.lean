import Acceptance.Source.View
import Acceptance.Text.Letter
import Acceptance.Text.Word

/-!
# Variable blocks

A block of variables opens on a line that holds the keyword `var` alone. It lasts until the next
such line, or until a line that starts with a keyword of a routine, a bracket or a closing brace.
Every other line of it may declare names of one type.
-/

namespace Acceptance.Source

open Text

/-- Names declared with one type on one line. -/
structure Declaration where
  line : Nat
  /-- The names as written, with the commas between them. -/
  names : List Char
  /-- The first word of the type. -/
  typeName : List Char
  deriving Repr, DecidableEq

/-- A block of variables. -/
structure VarBlock where
  /-- The line of the keyword. -/
  line : Nat
  declarations : List Declaration
  deriving Repr, DecidableEq

/-- Model of `VAR_LINE`: whether a masked line holds the keyword `var` alone. -/
def isVarLine (masked : List Char) : Bool :=
  ((keyword? "var".toList (skipBlanks masked)).map allBlank).getD false

/-- Whether a keyword stands here with a word boundary behind it. -/
def standsWord (word s : List Char) : Bool :=
  ((keyword? word s).map fun rest => isEdge rest.head?).getD false

/-- Model of `VAR_BLOCK_END`: whether a masked line closes a block of variables. -/
def closesVarBlock (masked : List Char) : Bool :=
  let s := skipBlanks masked
  s.head? == some '[' || s.head? == some '\x7d' ||
    ["begin".toList, "procedure".toList, "local".toList, "internal".toList, "protected".toList,
      "trigger".toList].any fun word => standsWord word s

/-- The text after a variable name, quoted or plain. -/
def afterName? (s : List Char) : Option (List Char) :=
  match s with
  | '"' :: rest =>
    match rest.dropWhile (· != '"') with
    | _ :: rest => some rest
    | [] => none
  | c :: rest => if isFoldedLetter c || c == '_' then some (rest.dropWhile isWordChar) else none
  | [] => none

/-- The text after a comma and one more name. -/
def afterNextName? (s : List Char) : Option (List Char) := do
  let rest ← char? ',' (skipBlanks s)
  afterName? (skipBlanks rest)

theorem length_of_afterName? {s rest : List Char} (h : afterName? s = some rest) :
    rest.length < s.length := by
  unfold afterName? at h
  split at h
  · next body =>
    split at h
    · next c tail ht =>
      obtain rfl : tail = rest := by simpa using h
      have h2 := (List.dropWhile_sublist (l := body) (· != '"')).length_le
      rw [ht] at h2
      simp only [List.length_cons] at h2 ⊢
      omega
    · simp at h
  · next c body hne =>
    split at h
    · obtain rfl : body.dropWhile isWordChar = rest := by simpa using h
      have h2 := (List.dropWhile_sublist (l := body) isWordChar).length_le
      simp only [List.length_cons]
      omega
    · simp at h
  · simp at h

theorem length_of_afterNextName? {s rest : List Char} (h : afterNextName? s = some rest) :
    rest.length < s.length := by
  simp only [afterNextName?, Option.bind_eq_bind, Option.bind_eq_some_iff] at h
  obtain ⟨tail, ht, h⟩ := h
  have h1 : (skipBlanks s).length ≤ s.length := (List.dropWhile_sublist _).length_le
  have h2 := length_of_afterName? h
  have h3 : (skipBlanks tail).length ≤ tail.length := (List.dropWhile_sublist _).length_le
  have h4 : tail.length < (skipBlanks s).length := by
    unfold char? at ht
    split at ht
    · next c body hs =>
      split at ht
      · obtain rfl : body = tail := by simpa using ht
        simp [hs]
      · simp at ht
    · simp at ht
  omega

/-- The text after all further names of a declaration. -/
def afterNames (s : List Char) : List Char :=
  match _h : afterNextName? s with
  | some rest => afterNames rest
  | none => s
termination_by s.length
decreasing_by exact length_of_afterNextName? (by assumption)

/-- The first word of a type, behind an optional word that makes the variable temporary. -/
def typeName? (s : List Char) : Option (List Char) :=
  let plain := (run? isFoldedLetter s).map (·.1)
  match (keyword? "temporary".toList s).bind blanks? with
  | some rest => ((run? isFoldedLetter rest).map (·.1)).orElse fun _ => plain
  | none => plain

/-- Model of `DECLARATION`: the declaration at the start of a masked line. -/
def declaration? (number : Nat) (masked : List Char) : Option Declaration := do
  let s := skipBlanks masked
  let rest ← afterName? s
  let rest := afterNames rest
  let names := s.take (s.length - rest.length)
  let rest ← char? ':' (skipBlanks rest)
  let typeName ← typeName? (skipBlanks rest)
  return ⟨number, names, typeName⟩

/-- Model of the loop of `scan_var_blocks`: the blocks from here on; `current` is the open one. -/
def varBlocksFrom (current : Option VarBlock) : List Line → List VarBlock
  | [] => current.toList
  | line :: rest =>
    if isVarLine line.masked then current.toList ++ varBlocksFrom (some ⟨line.number, []⟩) rest
    else
      match current with
      | none => varBlocksFrom none rest
      | some block =>
        if closesVarBlock line.masked then block :: varBlocksFrom none rest
        else
          let more := (declaration? line.number line.masked).toList
          varBlocksFrom (some ⟨block.line, block.declarations ++ more⟩) rest

/-- Model of `scan_var_blocks`: the blocks of variables of a source, in order. -/
def varBlocks (s : Source) : List VarBlock :=
  varBlocksFrom none s.lines

end Acceptance.Source
