import Acceptance.Text.Blank
import Acceptance.Text.Bytes
import Acceptance.Text.Case
import Acceptance.Text.Digit
import Acceptance.Text.Letter

/-!
# Names in generated code

A test procedure is named `T`, a number of at least four digits, a low line and its title in pascal
case; a codeunit is named after the first words of its work item, with a suffix that tells what it
is. Only ASCII letters and digits get into a name, and the parts are cut to fit.

Results:
* `isIdentifier_cons`: what an identifier starts with and goes on with.
-/

namespace Acceptance.Naming

open Text

/-- Model of `MAX_OBJECT_NAME_LEN`: the greatest number of characters of an object name. -/
def maxObjectName : Nat := 30

/-- Model of `MAX_TITLE_LEN`: the greatest number of characters of a title inside a procedure name.
-/
def maxTitle : Nat := 80

/-- Model of `FALLBACK_STEM`: the stem for a work item without usable words. -/
def fallbackStem : List Char := "Atdd".toList

/-- Model of `capitalize`: the word with its first character in upper case and the others in lower
case. -/
def capitalize : List Char → List Char
  | [] => []
  | c :: rest => upperChar c ++ rest.flatMap lowerChar

/-- Model of `alphanumeric_words`: the words of a text once all characters but ASCII letters, ASCII
digits and blanks are dropped. -/
def plainWords (s : List Char) : List (List Char) :=
  words (s.filter fun c => c.isAlphanum || isBlank c)

/-- Model of `pascal_case`: the first words of a text, each capitalized, without anything between
them. -/
def pascalCase (s : List Char) (most : Nat) : List Char :=
  ((plainWords s).take most).flatMap capitalize

/-- All words of a text in pascal case. -/
def pascalTitle (s : List Char) : List Char :=
  (plainWords s).flatMap capitalize

/-- The text cut to a number of bytes, if no character is split by that. -/
def cut (n : Nat) (s : List Char) : List Char :=
  (truncateBytes? n s).getD s

/-- Model of `procedure_name`: the name of the test procedure of a scenario. -/
def procedureName (id : UInt32) (title : List Char) : List Char :=
  'T' :: padded 4 id.toNat ++ '_' :: cut maxTitle (pascalTitle title)

/-- Model of `name_suffix`: the end of a derived codeunit name. -/
def nameSuffix (affix : List Char) : List Char :=
  "Tests".toList ++ affix ++ "FDW".toList

/-- Model of `WORK_ITEM_PREFIX`: the text without a number and a hyphen or colon in front. -/
def withoutNumber (s : List Char) : List Char :=
  match skipBlanks (s.dropWhile isDigit) with
  | c :: rest =>
    if (s.head?.any isDigit) && (c == '-' || c == ':') then skipBlanks rest else s
  | [] => s

/-- The stem of a derived codeunit name before it is cut. -/
def stem (workItem : List Char) : List Char :=
  match pascalCase (withoutNumber (trim workItem)) 3 with
  | [] => fallbackStem
  | c :: rest => c :: rest

/-- Model of `codeunit_name`: the codeunit name derived from a work item. -/
def codeunitName (workItem affix : List Char) : List Char :=
  let suffix := nameSuffix affix
  cut (maxObjectName - byteLength suffix) (stem workItem) ++ suffix

/-- Model of `is_identifier`: whether a name can stand in code without quotes. -/
def isIdentifier : List Char → Bool
  | [] => false
  | c :: rest => (c.isAlpha || c == '_') && rest.all isPlainNameChar

/-! ## First laws -/

theorem isIdentifier_cons (c : Char) (rest : List Char) :
    isIdentifier (c :: rest) = ((c.isAlpha || c == '_') && rest.all isPlainNameChar) := rfl

end Acceptance.Naming
