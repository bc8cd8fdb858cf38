/-!
# Texts in UTF-8

Positions are counted in the bytes of the UTF-8 encoding. An offset inside a character, or past the
end of the text, is no position, so cutting there has no result. Bytes that are no encoding give no
text.

Results:
* `dropBytes?_append`, `takeBytes?_append`: cutting at the end of a first part gives the two parts.
* `dropBytes?_eq_some_iff`, `takeBytes?_eq_some_iff`: there is no other way to cut.
-/

namespace Acceptance.Text

/-- The number of bytes of the UTF-8 encoding. -/
def byteLength : List Char → Nat
  | [] => 0
  | c :: s => c.utf8Size + byteLength s

/-- The text from a byte offset on; none if no character starts or ends there. -/
def dropBytes? : Nat → List Char → Option (List Char)
  | 0, s => some s
  | _ + 1, [] => none
  | n + 1, c :: s => if c.utf8Size ≤ n + 1 then dropBytes? (n + 1 - c.utf8Size) s else none

/-- The text up to a byte offset; none if no character starts or ends there. -/
def takeBytes? : Nat → List Char → Option (List Char)
  | 0, _ => some []
  | _ + 1, [] => none
  | n + 1, c :: s =>
    if c.utf8Size ≤ n + 1 then (takeBytes? (n + 1 - c.utf8Size) s).map (c :: ·) else none

/-- The text cut down to a number of bytes; the whole text if it has no more. None if the cut would
split a character. -/
def truncateBytes? (n : Nat) (s : List Char) : Option (List Char) :=
  if byteLength s ≤ n then some s else takeBytes? n s

/-- The part of a text between two byte offsets; none if these are out of order, past the end, or
inside a character. -/
def slice? (first last : Nat) (s : List Char) : Option (List Char) :=
  if first ≤ last then (dropBytes? first s).bind (takeBytes? (last - first)) else none

/-- The UTF-8 encoding of a text. -/
def utf8 (s : List Char) : List UInt8 := s.flatMap String.utf8EncodeChar

/-- The text with some bytes as its UTF-8 encoding; none if there is no such text. -/
def decode? (bytes : List UInt8) : Option (List Char) :=
  (String.fromUTF8? bytes.toByteArray).map String.toList

/-- The byte of an ASCII character. -/
def byte (c : Char) : UInt8 := c.toNat.toUInt8

/-- The line feed in UTF-8. -/
def lineFeedByte : UInt8 := 10

/-- The space in UTF-8. -/
def spaceByte : UInt8 := 32

/-! ## First laws -/

@[simp] theorem byteLength_nil : byteLength [] = 0 := rfl

@[simp] theorem byteLength_cons (c : Char) (s : List Char) :
    byteLength (c :: s) = c.utf8Size + byteLength s := rfl

@[simp] theorem byteLength_append (s t : List Char) :
    byteLength (s ++ t) = byteLength s + byteLength t := by
  induction s with
  | nil => simp
  | cons c s ih => simp only [List.cons_append, byteLength_cons, ih, Nat.add_assoc]

theorem byteLength_le_of_sublist {s t : List Char} (h : s.Sublist t) :
    byteLength s ≤ byteLength t := by
  induction h with
  | slnil => exact Nat.le_refl _
  | cons c _ ih => exact Nat.le_trans ih (Nat.le_add_left _ _)
  | cons_cons c _ ih => exact Nat.add_le_add_left ih _

theorem dropBytes?_append (s t : List Char) : dropBytes? (byteLength s) (s ++ t) = some t := by
  induction s with
  | nil => simp [dropBytes?]
  | cons c s ih =>
    have hc : 0 < c.utf8Size := Char.utf8Size_pos c
    obtain ⟨n, hn⟩ : ∃ n, c.utf8Size + byteLength s = n + 1 :=
      ⟨c.utf8Size + byteLength s - 1, by omega⟩
    simp only [byteLength_cons, List.cons_append, hn, dropBytes?]
    rw [if_pos (by omega), show n + 1 - c.utf8Size = byteLength s by omega, ih]

theorem takeBytes?_append (s t : List Char) : takeBytes? (byteLength s) (s ++ t) = some s := by
  induction s with
  | nil => simp [takeBytes?]
  | cons c s ih =>
    have hc : 0 < c.utf8Size := Char.utf8Size_pos c
    obtain ⟨n, hn⟩ : ∃ n, c.utf8Size + byteLength s = n + 1 :=
      ⟨c.utf8Size + byteLength s - 1, by omega⟩
    simp only [byteLength_cons, List.cons_append, hn, takeBytes?]
    rw [if_pos (by omega), show n + 1 - c.utf8Size = byteLength s by omega, ih]
    rfl

theorem dropBytes?_eq_some_iff {n : Nat} {s rest : List Char} :
    dropBytes? n s = some rest ↔ ∃ start, byteLength start = n ∧ s = start ++ rest := by
  constructor
  · intro h
    fun_induction dropBytes? n s with
    | case1 s => exact ⟨[], rfl, by simpa using h⟩
    | case2 => simp at h
    | case3 n c s hc ih =>
      obtain ⟨start, hl, rfl⟩ := ih h
      exact ⟨c :: start, by simp [hl]; omega, rfl⟩
    | case4 => simp at h
  · rintro ⟨start, rfl, rfl⟩
    exact dropBytes?_append start rest

theorem takeBytes?_eq_some_iff {n : Nat} {s start : List Char} :
    takeBytes? n s = some start ↔ byteLength start = n ∧ ∃ rest, s = start ++ rest := by
  constructor
  · intro h
    fun_induction takeBytes? n s generalizing start with
    | case1 s =>
      obtain rfl : [] = start := by simpa using h
      exact ⟨rfl, s, rfl⟩
    | case2 => simp at h
    | case3 n c s hc ih =>
      obtain ⟨u, hu, rfl⟩ := Option.map_eq_some_iff.1 h
      obtain ⟨hl, rest, rfl⟩ := ih hu
      exact ⟨by simp [hl]; omega, rest, rfl⟩
    | case4 => simp at h
  · rintro ⟨rfl, rest, rfl⟩
    exact takeBytes?_append start rest

@[simp] theorem utf8_nil : utf8 [] = [] := rfl

@[simp] theorem utf8_cons (c : Char) (s : List Char) :
    utf8 (c :: s) = String.utf8EncodeChar c ++ utf8 s := rfl

@[simp] theorem utf8_append (s t : List Char) : utf8 (s ++ t) = utf8 s ++ utf8 t := by
  simp [utf8]

end Acceptance.Text
