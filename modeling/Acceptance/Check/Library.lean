import Acceptance.Check.Analysis
import Acceptance.Check.Report
import Acceptance.Text.Digit
import Acceptance.Text.Letter
import Acceptance.Text.Search
import Acceptance.Text.Word

/-!
# Comments in library procedures

Where a source declares a variable or a codeunit whose name starts with Library, its procedures that
are no tests hold no comments.
-/

namespace Acceptance.Check

open Text

/-- Model of `LIBRARY_VARIABLE`: a variable that starts here and whose name starts with Library. -/
def libraryVariable? (before : Option Char) (s : List Char) : Option (Unit × List Char) := do
  guard (isEdge before)
  let rest ← after? "Library".toList s
  let (_, rest) ← run? isPlainNameChar rest
  let rest ← char? ':' (skipBlanks rest)
  return ((), rest)

/-- Model of `LIBRARY_OBJECT`: a codeunit declared here whose name starts with Library. -/
def libraryObject? (before : Option Char) (s : List Char) : Option (Unit × List Char) := do
  guard (isEdge before)
  let rest ← keyword? "codeunit".toList s
  let rest ← blanks? rest
  let (_, rest) ← run? isDigit rest
  let rest ← blanks? rest
  let rest ← keyword? "library".toList ((char? '"' rest).getD rest)
  return ((), rest)

/-- Whether a masked source declares a library. -/
def usesLibrary (masked : List Char) : Bool :=
  !(allMatches libraryVariable? masked).isEmpty || !(allMatches libraryObject? masked).isEmpty

/-- Whether a routine is a procedure and no test. -/
def isHelper (r : Source.Routine) : Bool :=
  r.kind == .procedure && !r.isTest

/-- The issue about a library procedure with comments. -/
def libraryIssue (r : Source.Routine) : Issue :=
  let name := String.ofList r.name
  Issue.warning Rule.libraryNoComments
    s!"Library function \"{name}\" should not contain comments" r.headerLine

/-- Model of `library_functions`: the issues about comments in library procedures. -/
def library (a : Analysis) : List Issue :=
  if usesLibrary a.source.masked then
    (a.routines.filter fun r => isHelper r && !(a.commentsOf r).isEmpty).map libraryIssue
  else []

end Acceptance.Check
