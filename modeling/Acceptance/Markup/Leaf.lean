import Acceptance.Markup.Tag
import Acceptance.Text.Digit

/-!
# How blocks start and end

The first characters of a line tell whether a block starts there: a rule, a heading, a fence of
code, a block of HTML or a list item. A few of them also end a paragraph. Recognisers take the
characters of the line behind its indentation.
-/

namespace Acceptance.Markup

open Text

/-- Whether a line is a rule: three or more stars, hyphens or low lines with nothing else but
spaces and tabs. -/
def isRule (line : List Char) : Bool :=
  match line with
  | [] => false
  | mark :: _ =>
    (mark == '-' || mark == '*' || mark == '_') && decide (3 ≤ line.count mark) &&
      line.all fun c => c == mark || c == ' ' || c == '\t'

/-- The number of hash signs of a heading, which are one to six with a blank behind. -/
def headingMark? (line : List Char) : Option Nat :=
  let level := (line.takeWhile (· == '#')).length
  if 1 ≤ level ∧ level ≤ 6 ∧ (line.drop level).head?.all isGap then some level else none

/-- Whether a line underlines the paragraph above, which makes it a heading. -/
def isUnderline (line : List Char) : Bool :=
  match line with
  | [] => false
  | c :: _ => (c == '=' || c == '-') && (line.dropWhile (· == c)).all isSpace

/-! ## Fences -/

/-- The character and the length of a fence of code: three or more ticks or tildes, and no tick
behind ticks. -/
def fence? (line : List Char) : Option (Char × Nat) :=
  match line with
  | [] => none
  | c :: _ =>
    let length := (line.takeWhile (· == c)).length
    if (c == '\x60' || c == '~') && decide (3 ≤ length) &&
        (c == '~' || !(line.drop length).contains '\x60') then some (c, length)
    else none

/-- Whether a line closes a fence. -/
def closesFence (fence : Char × Nat) (line : List Char) : Bool :=
  decide (fence.2 ≤ (line.takeWhile (· == fence.1)).length) &&
    (line.dropWhile (· == fence.1)).all (· == ' ')

/-! ## Blocks of HTML -/

/-- The tags whose content is taken as it stands. -/
def verbatimTags : List String := ["pre", "style", "script", "textarea"]

/-- The tags that start a block of HTML. -/
def blockTags : List String :=
  ["address", "article", "aside", "base", "basefont", "blockquote", "body", "caption", "center",
   "col", "colgroup", "dd", "details", "dialog", "dir", "div", "dl", "dt", "fieldset",
   "figcaption", "figure", "footer", "form", "frame", "frameset", "h1", "h2", "h3", "h4", "h5",
   "h6", "head", "header", "hr", "html", "iframe", "legend", "li", "link", "main", "menu",
   "menuitem", "nav", "noframes", "ol", "optgroup", "option", "p", "param", "search", "section",
   "summary", "table", "tbody", "td", "tfoot", "th", "thead", "title", "tr", "track", "ul"]

/-- What ends the verbatim block of HTML that an angle bracket opens in front of the given
characters. -/
def htmlEnd? (s : List Char) : Option (List Char) :=
  let opens (tag : String) : Bool :=
    (s.take tag.length).map Char.toLower == tag.toList &&
      (s.drop tag.length).head?.all fun c => isGap c || c == '>'
  match verbatimTags.find? opens with
  | some tag => some ("</".toList ++ tag.toList ++ ['>'])
  | none =>
    if (behindAll? "!--".toList s).isSome then some "-->".toList
    else if s.head? == some '?' then some "?>".toList
    else if (behindAll? "![CDATA[".toList s).isSome then some "]]>".toList
    else if s.head? == some '!' && s.tail.head?.any Char.isAlpha then some [('>')]
    else none

/-- Whether an angle bracket in front of the given characters opens a block of HTML by the name of
its tag. -/
def isBlockTag (s : List Char) : Bool :=
  let s := (behind? '/' s).getD s
  let name := s.takeWhile Char.isAlphanum
  let rest := s.dropWhile Char.isAlphanum
  blockTags.any (·.toList == name.map Char.toLower) &&
    match rest with
    | [] => true
    | '/' :: '>' :: _ => true
    | c :: _ => c == ' ' || c == '\t' || c == '>'

/-- Whether a whole tag stands behind an angle bracket and nothing else on its line. -/
def isLoneTag (s : List Char) : Bool :=
  (tag? true s).any fun rest => rest.all isSpace

/-! ## List items -/

/-- The marker of a list item. -/
structure ItemMarker where
  width : Nat
  /-- Its number; none for a bullet. -/
  number : Option Nat
  deriving Repr, DecidableEq

/-- The marker that starts here: a bullet, or up to nine digits with a full stop or parenthesis. -/
def itemMarker? (line : List Char) : Option ItemMarker :=
  match line with
  | [] => none
  | c :: _ =>
    if c == '-' || c == '+' || c == '*' then some ⟨1, none⟩
    else
      let digits := line.takeWhile isAsciiDigit
      let delimiter := (line.drop digits.length).head?
      if 1 ≤ digits.length ∧ digits.length ≤ 9 ∧ (delimiter = some '.' ∨ delimiter = some ')') then
        some ⟨digits.length + 1, some (decimalFrom 0 digits)⟩
      else none

/-- Whether a list item ends a paragraph on the line that starts here. Within all containers of the
paragraph it must be a bullet or number one, and not be empty. -/
def itemInterrupts (within : Bool) (line : List Char) : Bool :=
  match itemMarker? line with
  | none => false
  | some marker =>
    let rest := line.drop marker.width
    (rest.head?.all fun c => c == ' ' || c == '\t') &&
      (!within || (marker.number.all (· == 1) && !rest.all isSpace))

/-- Whether a block that ends a paragraph starts here, with the text up to the next line feed.
`within` tells whether the line belongs to all containers of the paragraph. -/
def interrupts (within : Bool) (s : List Char) : Bool :=
  let line := s.takeWhile fun c => !isLineEnd c
  line.isEmpty || isRule line || (headingMark? line).isSome || (fence? s).isSome ||
    line.head? == some '>' || itemInterrupts within line ||
    (line.head? == some '<' && ((htmlEnd? line.tail).isSome || isBlockTag line.tail))

end Acceptance.Markup
