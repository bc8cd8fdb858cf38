import Acceptance.Markup.Ascii

/-!
# Tags and links in angle brackets

What may stand behind an opening angle bracket: an address, which is a scheme and a colon or a mail
address, or a piece of HTML, which is a tag with attributes, a comment, an instruction, a
declaration or a character section. Each recogniser gives the text behind the closing bracket. A
declaration stands apart from the others, since it is read in another text than they are.
-/

namespace Acceptance.Markup

/-! ## Attributes and tags -/

/-- The text behind blanks and line ends; none at a line end if the tag has to end on its line. -/
def skipGaps? (oneLine : Bool) : List Char → Option (List Char)
  | [] => some []
  | c :: s =>
    if isSpace c then skipGaps? oneLine s
    else if isLineEnd c then if oneLine then none else skipGaps? oneLine s
    else some (c :: s)

/-- The text behind a name of an attribute. -/
def attributeName? : List Char → Option (List Char)
  | [] => none
  | c :: s =>
    if c.isAlpha || c == '_' || c == ':' then
      some (s.dropWhile fun c => c.isAlphanum || c == '_' || c == '.' || c == ':' || c == '-')
    else none

/-- The text behind the closing quote of a value. -/
def behindQuote? (oneLine : Bool) (quote : Char) : List Char → Option (List Char)
  | [] => none
  | c :: s =>
    if c == quote then some s
    else if oneLine && isLineEnd c then none
    else behindQuote? oneLine quote s

/-- Whether a character may stand in a value without quotes. -/
def isBareValueChar (c : Char) : Bool :=
  !("'\" =><\x60".toList.contains c || isLineEnd c)

/-- The text behind a value of an attribute. -/
def attributeValue? (oneLine : Bool) : List Char → Option (List Char)
  | [] => none
  | c :: s =>
    if c == '"' || c == '\'' then behindQuote? oneLine c s
    else if isBareValueChar c then some (s.dropWhile isBareValueChar)
    else none

/-- The text behind an attribute, whose value is optional. -/
def attribute? (oneLine : Bool) (s : List Char) : Option (List Char) := do
  let bare ← attributeName? s
  let rest ← skipGaps? oneLine bare
  match rest with
  | '=' :: rest => attributeValue? oneLine (← skipGaps? oneLine rest)
  | _ => return bare

/-- The text from the end of the attributes on, which is a slash or the closing bracket. Each
attribute needs a blank in front. -/
def attributes? (oneLine : Bool) : Nat → List Char → Option (List Char)
  | 0, _ => none
  | fuel + 1, s => do
    match ← skipGaps? oneLine s with
    | [] => none
    | c :: rest =>
      if c == '/' || c == '>' then return c :: rest
      else if (c :: rest).length == s.length then none
      else attributes? oneLine fuel (← attribute? oneLine (c :: rest))

/-- The text behind the name of a tag. -/
def tagName? : List Char → Option (List Char)
  | [] => none
  | c :: s =>
    if c.isAlpha then
      some ((s.dropWhile Char.isAlpha).dropWhile fun c => c.isAlphanum || c == '-')
    else none

/-- The text behind a tag whose opening bracket has been read. -/
def tag? (oneLine : Bool) (s : List Char) : Option (List Char) :=
  match s with
  | '/' :: s => do behind? '>' (skipSpaces (← tagName? s))
  | _ => do
    let rest ← tagName? s
    match ← attributes? oneLine (rest.length + 1) rest with
    | '/' :: rest => behind? '>' rest
    | rest => behind? '>' rest

/-! ## Other pieces of HTML -/

/-- The text behind a comment whose `<!` has been read. The dashes that open it may close it too. -/
def comment? (s : List Char) : Option (List Char) :=
  match s with
  | '-' :: '-' :: _ => behindFirst? "-->".toList s
  | _ => none

/-- The text behind a character section whose `<!` has been read. The first brackets in it must
close it. -/
def characterSection? (s : List Char) : Option (List Char) := do
  let rest ← behindAll? "[CDATA[".toList s
  match rest.dropWhile (· != ']') with
  | ']' :: rest => behind? '>' (rest.dropWhile (· == ']'))
  | _ => none

/-- The text behind a declaration whose opening bracket has been read: an exclamation mark, a letter
and whatever stands in front of a closing bracket. -/
def declaration? (s : List Char) : Option (List Char) :=
  match s with
  | '!' :: c :: s => if c.isAlpha then behindFirst? ">".toList s else none
  | _ => none

/-- The text behind a piece of HTML whose opening bracket has been read; a declaration is none. -/
def inlineHtml? (s : List Char) : Option (List Char) :=
  match s with
  | '!' :: s => (comment? s).or (characterSection? s)
  | '?' :: s => behindFirst? "?>".toList s
  | _ => tag? false s

/-! ## Addresses -/

/-- The text behind an address with a scheme of 2 to 32 characters whose opening bracket has been
read. -/
def schemeAddress? (s : List Char) : Option (List Char) := do
  guard (s.head?.any Char.isAlpha)
  let isSchemeChar (c : Char) : Bool := c.isAlphanum || c == '.' || c == '-' || c == '+'
  let length := (s.takeWhile isSchemeChar).length
  guard (2 ≤ length ∧ length ≤ 32)
  let rest ← behind? ':' (s.dropWhile isSchemeChar)
  behind? '>' (rest.dropWhile fun c => !(c == '>' || c == '<' || c.toNat ≤ 32))

/-- Whether a character may stand in front of the at sign of a mail address. -/
def isMailboxChar (c : Char) : Bool :=
  c.isAlphanum || ".!#$%&'*+/=?^_\x60\x7b|\x7d~-".toList.contains c

/-- The text behind a domain: labels of at most 63 letters, digits and hyphens with full stops
between them, and no hyphen at either end of a label. -/
def domain? : Nat → List Char → Option (List Char)
  | 0, _ => none
  | fuel + 1, s => do
    let isLabelChar (c : Char) : Bool := c.isAlphanum || c == '-'
    let label := s.takeWhile isLabelChar
    guard (1 ≤ label.length ∧ label.length ≤ 63)
    guard (label.head? ≠ some '-' ∧ label.getLast? ≠ some '-')
    match s.dropWhile isLabelChar with
    | '.' :: rest => domain? fuel rest
    | rest => return rest

/-- The text behind a mail address whose opening bracket has been read. -/
def mailAddress? (s : List Char) : Option (List Char) := do
  guard (s.head?.any isMailboxChar)
  let rest ← behind? '@' (s.dropWhile isMailboxChar)
  behind? '>' (← domain? (rest.length + 1) rest)

/-- The text behind an address whose opening bracket has been read. -/
def address? (s : List Char) : Option (List Char) :=
  (schemeAddress? s).or (mailAddress? s)

/-- The text behind whatever an opening angle bracket opens, except for a declaration. -/
def angle? (s : List Char) : Option (List Char) :=
  (address? s).or (inlineHtml? s)

end Acceptance.Markup
