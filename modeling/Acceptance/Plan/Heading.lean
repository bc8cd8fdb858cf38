import Acceptance.Markup.Leaf
import Acceptance.Text.Digit
import Acceptance.Text.Letter

/-!
# Headings and breaks

A heading has one to six hash signs behind at most three blanks. The heading of a scenario goes on,
behind optional stars and low lines, with the word Scenario in any case, a token and a title, with
one colon, full stop or hyphen between them if there is any. A thematic break is a line of three or
more stars, hyphens or low lines with nothing else but spaces and tabs.

The number of a scenario is written in its token, behind an optional `T` or `TC`.

Results:
* `scenarioNumber?_ne_zero`: a token never gives the number zero.
* `level_headingLevel?`: the level of a heading is between one and six.
-/

namespace Acceptance

open Text

/-- The heading of a scenario. -/
structure Heading where
  /-- The number of hash signs. -/
  level : Nat
  token : List Char
  /-- The title as written. -/
  title : List Char
  deriving Repr, DecidableEq

/-- The number of hash signs behind at most three blanks, if it is between one and six, and the text
behind them. -/
def hashes? (line : List Char) : Option (Nat × List Char) :=
  let indent := (line.takeWhile isBlank).length
  let s := skipBlanks line
  let level := (s.takeWhile (· == '#')).length
  if indent ≤ 3 ∧ 1 ≤ level ∧ level ≤ 6 then some (level, s.dropWhile (· == '#')) else none

/-- Model of `HEADING`: the level of a line that is a heading. -/
def headingLevel? (line : List Char) : Option Nat :=
  (hashes? line).map (·.1)

/-- Model of `THEMATIC_BREAK`: whether a line is a thematic break, a rule behind at most three
spaces. -/
def isThematicBreak (line : List Char) : Bool :=
  decide ((line.takeWhile (· == ' ')).length ≤ 3) && Markup.isRule (line.dropWhile (· == ' '))

/-- The text after one colon, full stop or hyphen, if there is one. -/
def skipSeparator (s : List Char) : List Char :=
  match s with
  | c :: rest => if c == ':' || c == '.' || c == '-' then rest else s
  | [] => []

namespace Heading

/-- Model of `SCENARIO_HEADING` and `ScenarioBlock::open`: the heading of a scenario on a line. -/
def ofLine? (line : List Char) : Option Heading := do
  let (level, rest) ← hashes? line
  let rest := skipBlanks ((skipBlanks rest).dropWhile fun c => c == '*' || c == '_')
  let rest ← keyword? "scenario".toList rest
  let rest ← blanks? rest
  let (token, rest) ← run? isNameChar rest
  return ⟨level, token, skipBlanks (skipSeparator (skipBlanks rest))⟩

/-- Model of `is_closed_by`: whether a line closes the block that the heading opened. A thematic
break does, and a heading with fewer hash signs. -/
def isClosedBy (h : Heading) (line : List Char) : Bool :=
  isThematicBreak line || (headingLevel? line).any fun level => decide (level < h.level)

end Heading

/-- The token without `TC` or `T` in front of its number, which `ID_PREFIX` passes over. -/
def numberPart (token : List Char) : List Char :=
  let startsDigit (s : List Char) : Bool := s.head?.any isDigit
  match keyword? "tc".toList token, keyword? "t".toList token with
  | some rest, other =>
    if startsDigit rest then rest
    else match other with
      | some rest => if startsDigit rest then rest else token
      | none => token
  | none, some rest => if startsDigit rest then rest else token
  | none, none => token

/-- Model of `scenario_number`: the number written in the token of a scenario heading; none if there
is none, or zero, or one from `2 ^ 32` on. -/
def scenarioNumber? (token : List Char) : Option UInt32 := do
  let n ← word32? ((numberPart token).takeWhile isDigit)
  if n = 0 then none else return n

/-! ## First laws -/

theorem level_headingLevel? {line : List Char} {level : Nat} (h : headingLevel? line = some level) :
    1 ≤ level ∧ level ≤ 6 := by
  simp only [headingLevel?, hashes?, Option.map_eq_some_iff] at h
  obtain ⟨p, hp, rfl⟩ := h
  split at hp
  · next hc =>
    obtain rfl := Option.some.inj hp
    exact hc.2
  · simp at hp

theorem scenarioNumber?_ne_zero {token : List Char} {n : UInt32}
    (h : scenarioNumber? token = some n) : n ≠ 0 := by
  simp only [scenarioNumber?, Option.bind_eq_bind, Option.bind_eq_some_iff] at h
  obtain ⟨m, -, hn⟩ := h
  split at hn
  · cases hn
  · next hm =>
    obtain rfl := Option.some.inj hn
    exact hm

end Acceptance
