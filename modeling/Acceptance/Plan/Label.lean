import Acceptance.Plan.Basic
import Acceptance.Text.Letter
import Acceptance.Text.Search
import Acceptance.Text.Word

/-!
# Bold labels

A line of a plan may carry a label in bold: two stars, a word in any case, an optional colon, two
stars, with blanks wherever they please, and another optional colon behind. What follows is the
value of the label. The first place of the line where a label with a value stands is the one that
counts.

Results:
* `boldLabel?_eq_some_iff`: where a bold label ends.
* `Label.observe_and`: an AND label leaves the active group.
-/

namespace Acceptance

open Text

/-- Model of `StepLabel`: the label of a step. -/
inductive Label where
  | given
  | when
  | expected
  | and
  deriving Repr, DecidableEq

namespace Label

/-- All labels, in the order in which they are tried. -/
def all : List Label := [given, when, expected, and]

/-- The word of a label in lower case, from which `from_word` gets the label. -/
def word : Label → List Char
  | given => "given".toList
  | when => "when".toList
  | expected => "then".toList
  | and => "and".toList

/-- The word of a label as it is shown. -/
def name : Label → String
  | given => "Given"
  | when => "When"
  | expected => "Then"
  | and => "And"

/-- Model of `StepLabel::context`: the group that the label opens. -/
def group? : Label → Option Group
  | given => some .given
  | when => some .when
  | expected => some .expected
  | and => none

/-- Model of `observe`: the active group after a label. -/
def observe (current : Group) (label : Label) : Group :=
  label.group?.getD current

end Label

/-- The text after two stars. -/
def afterStars? (s : List Char) : Option (List Char) :=
  match s with
  | '*' :: '*' :: rest => some rest
  | _ => none

/-- The text after a colon, if there is one. -/
def skipColon (s : List Char) : List Char :=
  match s with
  | ':' :: rest => rest
  | _ => s

/-- The text after blanks, an optional colon and more blanks. -/
def skipMark (s : List Char) : List Char :=
  skipBlanks (skipColon (skipBlanks s))

/-- The text after a bold label, where `word?` gives the text after its word. -/
def boldLabel? (word? : List Char → Option (List Char)) (s : List Char) : Option (List Char) := do
  let rest ← afterStars? s
  let rest ← word? (skipBlanks rest)
  afterStars? (skipMark rest)

/-- The text after several words with blanks between them. -/
def keywords? : List (List Char) → List Char → Option (List Char)
  | [], s => some s
  | [word], s => keyword? word s
  | word :: more, s => do
    let rest ← keyword? word s
    let rest ← blanks? rest
    keywords? more rest

/-! ## Step labels -/

/-- The step label that starts here, and its value: the rest of the text, which must not hold a line
feed. -/
def stepHere? (s : List Char) : Option (Label × List Char) :=
  Label.all.findSome? fun label =>
    match boldLabel? (keyword? label.word) s with
    | some rest =>
      let value := skipMark rest
      if value.contains '\n' then none else some (label, trim value)
    | none => none

/-- Model of `STEP_LABEL`: the step label of a line and its value without the blanks at both ends.
-/
def step? (line : List Char) : Option (Label × List Char) :=
  firstMatch? stepHere? line

/-! ## The priority label -/

/-- The word that follows a priority label here. -/
def priorityHere? (s : List Char) : Option (List Char) := do
  let rest ← boldLabel? (keyword? "priority".toList) s
  let (word, _) ← run? isWordChar (skipMark rest)
  return word

/-- Model of `PRIORITY`: the word that follows the priority label of a line. -/
def priority? (line : List Char) : Option (List Char) :=
  firstMatch? priorityHere? line

/-! ## Metadata labels -/

/-- The value of the metadata label that starts here. It needs a character: where nothing but a
colon follows the label, that colon is the value, and blanks alone are a blank value. -/
def metadataHere? (words : List (List Char)) (s : List Char) : Option (List Char) := do
  let rest ← boldLabel? (keywords? words) s
  match skipMark rest with
  | c :: value => return trim (c :: value)
  | [] =>
    match rest with
    | [] => none
    | c :: more => if skipBlanks (c :: more) == [':'] then return [':'] else return []

/-- Model of one of `METADATA_PATTERNS`: the value of a metadata label on a line. -/
def metadata? (words : List (List Char)) (line : List Char) : Option (List Char) :=
  firstMatch? (metadataHere? words) line

/-! ## First laws -/

theorem boldLabel?_eq_some_iff {word? : List Char → Option (List Char)} {s rest : List Char} :
    boldLabel? word? s = some rest ↔
      ∃ body tail, s = '*' :: '*' :: body ∧ word? (skipBlanks body) = some tail ∧
        skipMark tail = '*' :: '*' :: rest := by
  have stars : ∀ t r : List Char, afterStars? t = some r ↔ t = '*' :: '*' :: r := by
    intro t r
    unfold afterStars?
    split
    · simp
    · next h => simpa using fun he => h r he
  simp [boldLabel?, Option.bind_eq_some_iff, stars]

@[simp] theorem Label.observe_and (current : Group) : and.observe current = current := rfl

end Acceptance
