/-!
# Places of a text

A place is one occurrence of a character in a text, together with all that stands before and behind
it. Reading a text structure means choosing places, so whatever is chosen is a part of the text. A
mark is a place that holds a star or a low line.

Results:
* `places_map_char`: the places of a text spell the text.
* `Place.getElem?_position`: a place holds the character at its position.
* `without_sublist`: what is left after taking places out is a subsequence of the text.
-/

namespace Acceptance.Markup

/-- One occurrence of a character in a text. -/
structure Place (text : List Char) where
  /-- What stands before it, the nearest character first. -/
  before : List Char
  char : Char
  /-- What stands behind it. -/
  after : List Char
  eq : text = before.reverse ++ char :: after

/-- The places of what is left of a text, where `before` has been read. -/
def placesFrom {text : List Char} :
    (before rest : List Char) → text = before.reverse ++ rest → List (Place text)
  | _, [], _ => []
  | before, c :: rest, h =>
    ⟨before, c, rest, h⟩ :: placesFrom (c :: before) rest (by simpa using h)

/-- The places of a text, from left to right. -/
def places (text : List Char) : List (Place text) :=
  placesFrom [] text rfl

namespace Place

variable {text : List Char}

/-- The number of characters before a place. -/
def position (p : Place text) : Nat :=
  p.before.length

end Place

/-- The characters at some places. -/
def spelled {text : List Char} (s : List (Place text)) : List Char :=
  s.map (·.char)

/-- A place that holds a star or a low line. -/
structure Mark (text : List Char) extends Place text where
  marked : char = '*' ∨ char = '_'

/-- The mark at a place that holds a star or a low line. -/
def Mark.ofPlace? {text : List Char} (p : Place text) : Option (Mark text) :=
  if h : p.char = '*' ∨ p.char = '_' then some ⟨p, h⟩ else none

/-- The text without some of its places. -/
def without {text : List Char} (removed : List (Place text)) : List Char :=
  let positions := removed.map (·.position)
  (text.zipIdx.filter fun p => !positions.contains p.2).map (·.1)

/-! ## First laws -/

theorem spelled_placesFrom {text : List Char} (before rest : List Char)
    (h : text = before.reverse ++ rest) : spelled (placesFrom before rest h) = rest := by
  induction rest generalizing before with
  | nil => rfl
  | cons c rest ih =>
    have := ih (c :: before) (by simpa using h)
    simp_all [placesFrom, spelled]

theorem places_map_char (text : List Char) : spelled (places text) = text :=
  spelled_placesFrom [] text rfl

theorem Place.getElem?_position {text : List Char} (p : Place text) :
    text[p.position]? = some p.char := by
  obtain ⟨before, c, after, rfl⟩ := p
  simp [position]

theorem without_sublist {text : List Char} (removed : List (Place text)) :
    (without removed).Sublist text := by
  have h := (List.filter_sublist (l := text.zipIdx)
    (p := fun p => !(removed.map (·.position)).contains p.2)).map (·.1)
  simpa [without] using h

end Acceptance.Markup
