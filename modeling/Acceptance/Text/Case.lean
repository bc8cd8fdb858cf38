import Acceptance.Text.CaseTable

/-!
# Upper and lower case

The full case mappings of single characters, and the lower case of a text. In a text a capital
sigma becomes a final sigma at the end of a word: after a cased character and before none, where
case-ignorable characters between them do not count.

Results:
* `lowerChar_of_lt`, `upperChar_of_lt`: an ASCII character maps to one ASCII character.
-/

namespace Acceptance.Text

/-- The image of a code point under the first stretch that has it. -/
def shifted (shifts : List Shift) (c : Char) : List Char :=
  match shifts.find? (·.holds c.toNat) with
  | some s => [Char.ofNat (c.toNat + s.distance).toNat]
  | none => [c]

/-- The image of a character: its expansion if it has one, else its shifted form. -/
def mapped (shifts : List Shift) (expansions : List (Nat × List Nat)) (c : Char) : List Char :=
  match expansions.lookup c.toNat with
  | some codes => codes.map Char.ofNat
  | none => shifted shifts c

/-- The lower-case form of a character on its own. -/
def lowerChar (c : Char) : List Char :=
  if c.toNat < 128 then [c.toLower] else mapped lowerShifts lowerExpansions c

/-- The upper-case form of a character. -/
def upperChar (c : Char) : List Char :=
  if c.toNat < 128 then [c.toUpper] else mapped upperShifts upperExpansions c

/-- Whether `c` is a lower-case, upper-case or title-case character. -/
def isCased (c : Char) : Bool :=
  if c.toNat < 128 then c.isAlpha else covers casedIntervals c

/-- Whether `c` does not count when the neighbours of a sigma are looked at. -/
def isCaseIgnorable (c : Char) : Bool :=
  covers caseIgnorableIntervals c

/-- Whether the first character that counts is cased. -/
def startsCased (s : List Char) : Bool :=
  ((s.dropWhile isCaseIgnorable).head?).any isCased

/-- Whether the last character that counts is cased, after one more character. -/
def endsCased (before : Bool) (c : Char) : Bool :=
  if isCaseIgnorable c then before else isCased c

/-- The lower case of the rest of a text; `before` says whether the last character that counts
before it is cased. -/
def lowercaseFrom (before : Bool) : List Char → List Char
  | [] => []
  | c :: rest =>
    let image :=
      if c == 'Σ' then (if before && !startsCased rest then ['ς'] else ['σ']) else lowerChar c
    image ++ lowercaseFrom (endsCased before c) rest

/-- The lower case of a text. -/
def lowercase (s : List Char) : List Char :=
  lowercaseFrom false s

/-! ## First laws -/

theorem lowerChar_of_lt {c : Char} (h : c.toNat < 128) : lowerChar c = [c.toLower] := by
  simp [lowerChar, h]

theorem upperChar_of_lt {c : Char} (h : c.toNat < 128) : upperChar c = [c.toUpper] := by
  simp [upperChar, h]

end Acceptance.Text
