import Acceptance.Text.Interval

/-!
# Blank characters

A character is blank if it has the Unicode property White_Space. Trimming removes blanks at the
ends of a text, and the words of a text are its maximal runs of other characters.

Results:
* `trim_eq_trimEnd_trimStart`: trimming is trimming at both ends.
* `words_cons_of_blank`: blanks separate words and belong to none.
-/

namespace Acceptance.Text

/-- The code points with the property White_Space. -/
def blankIntervals : List Interval := Interval.ofPairs
  [(9, 13), (32, 32), (133, 133), (160, 160), (5760, 5760), (8192, 8202), (8232, 8233),
   (8239, 8239), (8287, 8287), (12288, 12288)]

/-- Whether `c` is blank. -/
def isBlank (c : Char) : Bool :=
  c == ' ' || covers blankIntervals c

/-- The text without its leading blanks. -/
def skipBlanks (s : List Char) : List Char :=
  s.dropWhile isBlank

/-- The text without the trailing characters that satisfy `p`. -/
def dropEndWhile (p : Char → Bool) (s : List Char) : List Char :=
  (s.reverse.dropWhile p).reverse

/-- The text without its trailing blanks. -/
def trimEnd (s : List Char) : List Char :=
  dropEndWhile isBlank s

/-- The text without the characters at both ends that satisfy `p`. -/
def trimWhile (p : Char → Bool) (s : List Char) : List Char :=
  dropEndWhile p (s.dropWhile p)

/-- The text without the blanks at both ends. -/
def trim (s : List Char) : List Char :=
  trimWhile isBlank s

/-- Whether the text holds no other characters than blanks. -/
def allBlank (s : List Char) : Bool :=
  s.all isBlank

/-- The maximal runs of characters that are not blank. -/
def words : List Char → List (List Char)
  | [] => []
  | c :: rest =>
    if isBlank c then words rest
    else
      match rest.head?, words rest with
      | some d, w :: ws => if isBlank d then [c] :: w :: ws else (c :: w) :: ws
      | _, ws => [c] :: ws

/-! ## First laws -/

theorem trim_eq_trimEnd_trimStart (s : List Char) : trim s = trimEnd (skipBlanks s) := rfl

theorem words_cons_of_blank {c : Char} (h : isBlank c = true) (s : List Char) :
    words (c :: s) = words s := by
  simp [words, h]

end Acceptance.Text
