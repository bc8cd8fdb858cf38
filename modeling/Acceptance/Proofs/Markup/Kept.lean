import Mathlib.Data.List.Basic
import Acceptance.Markup.Strip
import Acceptance.Text.Bytes

/-!
# Taking marks out by their offsets

A reader of markup reports a piece of emphasis as a span of bytes. Its marks are the first and the
last bytes of the span, and they are struck out of a mask that has one entry for each byte of the
text; a character is kept if the entry of its first byte is. Striking out fails past the end of the
mask, and so does looking an entry up.

Main results:

* `Span.strike?_eq`: the marks of a span inside the text can be struck out.
* `withoutMarkup?_eq`: with spans inside the text nothing fails, whatever they are.
* `withoutMarkup?_of_nil`: a text in which no emphasis is reported.
-/

namespace Acceptance.Markup

open Text

/-! ## Specification -/

/-- A piece of emphasis: the offset at which it starts and the one behind its end. -/
structure Span where
  strong : Bool
  first : ℕ
  last : ℕ
  deriving Repr, DecidableEq

/-- The number of bytes of a mark: two if the emphasis is strong. -/
def Span.width (e : Span) : ℕ := if e.strong then 2 else 1

/-- A mask without the entries that have a property. -/
def struck (p : ℕ → Bool) (keep : List Bool) : List Bool :=
  keep.mapIdx fun i kept => kept && !p i

/-- Whether an offset lies between two others. -/
def within (first last i : ℕ) : Bool := decide (first ≤ i) && decide (i < last)

/-- Strikes out the entries between two offsets; none if the offsets are out of order or past the
end of the mask. -/
def strikeOut? (first last : ℕ) (keep : List Bool) : Option (List Bool) :=
  if first ≤ last ∧ last ≤ keep.length then some (struck (within first last) keep) else none

/-- Strikes out the marks of a span, unless it is too short for two marks. -/
def Span.strike? (e : Span) (keep : List Bool) : Option (List Bool) :=
  if e.last - e.first < 2 * e.width then some keep
  else do strikeOut? (e.last - e.width) e.last (← strikeOut? e.first (e.first + e.width) keep)

/-- The characters of a text from an offset on whose entries are kept; none if one has no entry. -/
def keptFrom? (keep : List Bool) : ℕ → List Char → Option (List Char)
  | _, [] => some []
  | i, c :: s => do
    let kept ← keep[i]?
    let rest ← keptFrom? keep (i + c.utf8Size) s
    return if kept then c :: rest else rest

/-- The text without the marks of the spans that a reader reports in it, and without what
`withoutMarkup` takes away besides. -/
def withoutMarkup? (spans : List Char → List Span) (text : List Char) : Option (List Char) := do
  let all := List.replicate (byteLength text) true
  let keep ← (spans text).foldlM (fun keep e => e.strike? keep) all
  let kept ← keptFrom? keep 0 text
  return trimWhile isBorder (kept.filter fun c => !isDecoration c)

/-! ## Striking out -/

section Struck

variable {p q : ℕ → Bool} {keep : List Bool}

@[simp] theorem length_struck : (struck p keep).length = keep.length := List.length_mapIdx

theorem getElem?_struck (i : ℕ) : (struck p keep)[i]? = keep[i]?.map (· && !p i) :=
  List.getElem?_mapIdx

theorem struck_struck : struck q (struck p keep) = struck (fun i => p i || q i) keep := by
  refine List.ext_getElem? fun i => ?_
  rw [getElem?_struck, getElem?_struck, getElem?_struck, Option.map_map]
  refine congrArg (Option.map · _) (funext fun kept => ?_)
  show (kept && !p i && !q i) = (kept && !(p i || q i))
  rw [Bool.not_or, Bool.and_assoc]

theorem struck_of_false (h : ∀ i, p i = false) : struck p keep = keep := by
  refine List.ext_getElem? fun i => ?_
  rw [getElem?_struck, h i]
  simp

end Struck

namespace Span

/-- Whether a byte belongs to a mark of a span. -/
def marks (e : Span) (i : ℕ) : Bool :=
  decide (2 * e.width ≤ e.last - e.first) &&
    (within e.first (e.first + e.width) i || within (e.last - e.width) e.last i)

theorem one_le_width (e : Span) : 1 ≤ e.width := by
  unfold width
  split <;> omega

/-- The marks of a span inside the text can be struck out. -/
theorem strike?_eq {e : Span} {keep : List Bool} (h : e.last ≤ keep.length) :
    e.strike? keep = some (struck e.marks keep) := by
  have hwidth := e.one_le_width
  rw [strike?]
  split_ifs with hshort
  · have hnone (i : ℕ) : e.marks i = false := by
      rw [marks, decide_eq_false (by omega), Bool.false_and]
    rw [struck_of_false hnone]
  · have hmarks : e.marks = fun i =>
        within e.first (e.first + e.width) i || within (e.last - e.width) e.last i := by
      funext i
      rw [marks, decide_eq_true (by omega), Bool.true_and]
    have hopening : strikeOut? e.first (e.first + e.width) keep =
        some (struck (within e.first (e.first + e.width)) keep) := if_pos (by omega)
    rw [hopening, hmarks, ← struck_struck]
    exact if_pos ⟨by omega, by rwa [length_struck]⟩

/-- With spans inside the text all marks can be struck out. -/
theorem foldlM_strike? {es : List Span} (keep : List Bool) (h : ∀ e ∈ es, e.last ≤ keep.length) :
    es.foldlM (fun keep e => e.strike? keep) keep =
      some (struck (fun i => es.any (·.marks i)) keep) := by
  induction es generalizing keep with
  | nil => exact congrArg some (struck_of_false fun _ => rfl).symm
  | cons e es ih =>
    have hes : ∀ k ∈ es, k.last ≤ (struck e.marks keep).length := fun k hk => by
      rw [length_struck]
      exact h k (List.mem_cons_of_mem e hk)
    rw [List.foldlM_cons, strike?_eq (h e List.mem_cons_self)]
    show es.foldlM _ (struck e.marks keep) = _
    rw [ih _ hes, struck_struck]
    rfl

end Span

/-! ## Keeping -/

/-- The characters of a text from an offset on at whose offsets a property does not hold. -/
def unmarked (p : ℕ → Bool) : ℕ → List Char → List Char
  | _, [] => []
  | i, c :: s => if p i then unmarked p (i + c.utf8Size) s else c :: unmarked p (i + c.utf8Size) s

theorem keptFrom?_eq {keep : List Bool} {p : ℕ → Bool} {i : ℕ} {s : List Char}
    (h : ∀ j, j < i + byteLength s → keep[j]? = some (!p j)) :
    keptFrom? keep i s = some (unmarked p i s) := by
  induction s generalizing i with
  | nil => rfl
  | cons c s ih =>
    have hsize := Char.utf8Size_pos c
    rw [byteLength_cons] at h
    have hrest := ih (i := i + c.utf8Size) fun j hj => h j (by omega)
    rw [keptFrom?, unmarked, h i (by omega)]
    simp only [Option.bind_eq_bind, Option.bind_some, hrest]
    cases p i <;> rfl

/-- With spans inside the text nothing fails, whatever they are. -/
theorem withoutMarkup?_eq {spans : List Char → List Span} {text : List Char}
    (h : ∀ e ∈ spans text, e.last ≤ byteLength text) : withoutMarkup? spans text =
      some (trimWhile isBorder ((unmarked (fun i => (spans text).any (·.marks i)) 0 text).filter
        fun c => !isDecoration c)) := by
  have hfold := Span.foldlM_strike? (List.replicate (byteLength text) true) (by simpa using h)
  have hkept : keptFrom? (struck (fun i => (spans text).any (·.marks i))
      (List.replicate (byteLength text) true)) 0 text =
        some (unmarked (fun i => (spans text).any (·.marks i)) 0 text) :=
    keptFrom?_eq fun j hj => by
      rw [Nat.zero_add] at hj
      rw [getElem?_struck, List.getElem?_replicate_of_lt hj, Option.map_some, Bool.true_and]
  rw [withoutMarkup?]
  simp only [hfold, hkept, Option.bind_eq_bind, Option.bind_some]
  rfl

theorem unmarked_of_false {p : ℕ → Bool} (h : ∀ i, p i = false) (i : ℕ) (s : List Char) :
    unmarked p i s = s := by
  induction s generalizing i with
  | nil => rfl
  | cons c s ih =>
    rw [unmarked, h i, ih]
    rfl

/-- Where no emphasis is reported, none is struck out. -/
theorem withoutMarkup?_of_nil {spans : List Char → List Span} {text : List Char}
    (h : spans text = []) : withoutMarkup? spans text =
      some (trimWhile isBorder (text.filter fun c => !isDecoration c)) := by
  rw [withoutMarkup?_eq (by rw [h]; rintro e ⟨⟩), unmarked_of_false fun i => by rw [h]; rfl]

end Acceptance.Markup
