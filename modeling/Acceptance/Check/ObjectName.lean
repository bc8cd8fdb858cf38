import Acceptance.Check.Analysis
import Acceptance.Check.Report
import Acceptance.Text.Digit
import Acceptance.Text.Letter
import Acceptance.Text.Search
import Acceptance.Text.Word

/-!
# Length of object names

An object is declared by a keyword, a number and a name, which stands in double quotes or is plain.
Its name has at most 30 characters, where quotation marks of both kinds and the blanks around the
name do not count.

Results:
* `objectLength_eq_nil_iff`: there is no issue exactly if no declared name is too long.
-/

namespace Acceptance.Check

open Text

/-- Model of `MAX_OBJECT_NAME_LEN`: the longest name of an object. -/
def maxObjectNameLength : Nat := 30

/-- The keywords that declare an object. -/
def objectKeywords : List (List Char) :=
  ["codeunit".toList, "table".toList, "page".toList, "report".toList, "xmlport".toList,
   "query".toList, "enum".toList]

/-- A name in double quotes on one line, quotes included, and the text behind it. -/
def quotedName? (s : List Char) : Option (List Char × List Char) :=
  match s with
  | '"' :: rest =>
    match rest.dropWhile fun c => c != '"' && c != '\n' with
    | '"' :: tail => some ('"' :: (rest.takeWhile fun c => c != '"' && c != '\n') ++ ['"'], tail)
    | _ => none
  | _ => none

/-- Model of `OBJECT_DECLARATION`: a declaration of an object that starts here, with the name as
written. -/
def objectName? (before : Option Char) (s : List Char) : Option (List Char × List Char) := do
  guard (isEdge before)
  let (_, rest) ← anyKeyword? objectKeywords s
  let rest ← blanks? rest
  let (_, rest) ← run? isDigit rest
  let rest ← blanks? rest
  (quotedName? rest).orElse fun _ => run? isNameChar rest

/-- A name without quotation marks and the blanks around it. -/
def bareName (written : List Char) : List Char :=
  trim (written.filter fun c => !(c == '"' || c == '\''))

/-- Model of `object_name_length`: the issues about lengths of object names. -/
def objectLength (a : Analysis) : List Issue :=
  (allMatches objectName? a.source.masked).filterMap fun (offset, written) =>
    let name := bareName written
    let length := name.length
    if length > maxObjectNameLength then
      let shown := String.ofList name
      some (Issue.error Rule.objectNameLength
        s!"Object name \"{shown}\" exceeds {maxObjectNameLength} characters ({length} chars)"
        (a.source.lineOf offset))
    else none

/-! ## First laws -/

theorem objectLength_eq_nil_iff {a : Analysis} :
    objectLength a = [] ↔
      ∀ m ∈ allMatches objectName? a.source.masked,
        (bareName m.2).length ≤ maxObjectNameLength := by
  simp only [objectLength, List.filterMap_eq_nil_iff]
  constructor
  · intro h m hm
    have := h m hm
    by_cases hl : (bareName m.2).length > maxObjectNameLength
    · simp [hl] at this
    · omega
  · intro h m hm
    have := h m hm
    simp [Nat.not_lt.2 this]

end Acceptance.Check
