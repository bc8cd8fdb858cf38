import Acceptance.Text.Blank

/-!
# Keywords without regard to case

Keywords are compared by simple case folding. Two characters outside ASCII fold to an ASCII letter,
the long s (U+017F) and the Kelvin sign (U+212A), so they stand for `s` and `k` wherever a letter is
matched without regard to case.

Results:
* `keyword?_eq_some_iff`: a keyword is found exactly where the folded text starts with it.
* `blanks?_eq_some_iff`: at least one blank is needed, and all of them are skipped.
-/

namespace Acceptance.Text

/-- The lower-case ASCII letter that `c` stands for, or `c` itself. -/
def foldLetter (c : Char) : Char :=
  if c == 'ſ' then 's' else if c == '\u212a' then 'k' else c.toLower

/-- Whether `c` stands for an ASCII letter. -/
def isFoldedLetter (c : Char) : Bool :=
  (foldLetter c).isAlpha

/-- Whether `c` stands for an ASCII letter or is an ASCII digit or the low line. -/
def isNameChar (c : Char) : Bool :=
  (foldLetter c).isAlphanum || c == '_'

/-- Whether `c` is an ASCII letter, an ASCII digit or the low line. -/
def isPlainNameChar (c : Char) : Bool :=
  c.isAlphanum || c == '_'

/-- The text after a keyword in lower case, if the text starts with the keyword in any case. -/
def keyword? : List Char → List Char → Option (List Char)
  | [], s => some s
  | _ :: _, [] => none
  | k :: word, c :: s => if foldLetter c == k then keyword? word s else none

/-- The text after the first keyword of the list that it starts with, and that keyword. -/
def anyKeyword? : List (List Char) → List Char → Option (List Char × List Char)
  | [], _ => none
  | word :: more, s =>
    match keyword? word s with
    | some rest => some (word, rest)
    | none => anyKeyword? more s

/-- The text after a given text, letter by letter. -/
def after? (start s : List Char) : Option (List Char) :=
  if start.isPrefixOf s then some (s.drop start.length) else none

/-- The text after one given character. -/
def char? (k : Char) : List Char → Option (List Char)
  | c :: s => if c == k then some s else none
  | [] => none

/-- The text after the blanks at its start, of which there must be one. -/
def blanks? (s : List Char) : Option (List Char) :=
  match s with
  | c :: rest => if isBlank c then some (skipBlanks rest) else none
  | [] => none

/-- The longest start of the text with the property `p`, if not empty, and the rest. -/
def run? (p : Char → Bool) (s : List Char) : Option (List Char × List Char) :=
  match s.takeWhile p with
  | [] => none
  | c :: run => some (c :: run, s.dropWhile p)

/-! ## First laws -/

theorem keyword?_eq_some_iff {word s rest : List Char} :
    keyword? word s = some rest ↔ ∃ start, start.map foldLetter = word ∧ s = start ++ rest := by
  induction word generalizing s with
  | nil => simp [keyword?, eq_comm]
  | cons k word ih =>
    cases s with
    | nil =>
      simp only [keyword?, reduceCtorEq, List.nil_eq_append_iff, false_iff, not_exists, not_and]
      rintro start hs rfl
      simp at hs
    | cons c s =>
      by_cases h : foldLetter c = k
      · simp only [keyword?, h, beq_self_eq_true, if_true, ih]
        constructor
        · rintro ⟨start, rfl, rfl⟩
          exact ⟨c :: start, by simp [h], rfl⟩
        · rintro ⟨start, hs, he⟩
          cases start with
          | nil => simp at hs
          | cons d start =>
            simp only [List.map_cons, List.cons.injEq, List.cons_append] at hs he
            exact ⟨start, hs.2, he.2⟩
      · simp only [keyword?, beq_iff_eq, h, if_false, reduceCtorEq, false_iff]
        rintro ⟨start, hs, he⟩
        cases start with
        | nil => simp at hs
        | cons d start =>
          simp only [List.map_cons, List.cons.injEq, List.cons_append] at hs he
          exact h (he.1 ▸ hs.1)

theorem blanks?_eq_some_iff {s rest : List Char} :
    blanks? s = some rest ↔ (∃ c, s.head? = some c ∧ isBlank c = true) ∧ rest = skipBlanks s := by
  cases s with
  | nil => simp [blanks?]
  | cons c s =>
    by_cases h : isBlank c = true
    · simp [blanks?, h, skipBlanks, eq_comm (a := rest)]
    · simp [blanks?, h]

end Acceptance.Text
