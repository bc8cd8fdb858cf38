import Mathlib.Data.List.Basic
import Acceptance.Proofs.Markup.Border
import Acceptance.Proofs.Markup.Spans
import Acceptance.Proofs.Text.Reader
import Acceptance.Proofs.Text.Trim

/-!
# Literal characters

Taking markup out of a text leaves a part of it: stars and ticks go, and blanks and low lines at the
ends. Every other character, whatever it would mean as markup, stays where it is, as long as the marks
that a reader reports are stars and low lines. On one line they always are.

Main results:

* `literal_unmarked`: no literal character goes with the marks.
* `isDelimited_of_mem_emphasisSpans`: on one line all marks are stars and low lines.
* `isUndecorated_withoutMarkup`: what is left of a text on one line.
* `exists_withoutMarkup?_isUndecorated`: what is left of a text, for every reader of markup.
-/

namespace Acceptance.Markup

open Text
open scoped List

variable {text : List Char}

/-! ## Specification -/

/-- The text without any stars, low lines and ticks. -/
def literal (s : List Char) : List Char := s.filter fun c => !(isDecoration c || c == '_')

/-- Whether a span lies inside the text, and only stars and low lines belong to its marks. -/
structure Span.IsDelimited (text : List Char) (e : Span) : Prop where
  inside : e.last ≤ byteLength text
  marked : ∀ start c more, text = start ++ c :: more → e.marks (byteLength start) = true →
    c = '*' ∨ c = '_'

/-- Whether `shown` is a part of the text with all of its literal characters but those blanks at its
ends, and without decoration. -/
structure IsUndecorated (text shown : List Char) : Prop where
  part : shown <+ text
  plain : ∀ c ∈ shown, c ≠ '*' ∧ c ≠ tick
  first : ∀ c ∈ shown.head?, c ≠ '_' ∧ isBlank c = false
  last : ∀ c ∈ shown.getLast?, c ≠ '_' ∧ isBlank c = false
  literal : literal shown = trim (literal text)

/-! ## Marks -/

theorem unmarked_sublist (p : ℕ → Bool) (i : ℕ) (s : List Char) : unmarked p i s <+ s := by
  induction s generalizing i with
  | nil => exact List.Sublist.slnil
  | cons c s ih =>
    rw [unmarked]
    cases p i with
    | true => exact (ih _).cons c
    | false => exact (ih _).cons_cons c

/-- Taking out marks makes no difference where they would be left out anyway. -/
theorem filter_unmarked {p : ℕ → Bool} {q : Char → Bool}
    (h : ∀ start c more, text = start ++ c :: more → p (byteLength start) = true → q c = false) :
    (unmarked p 0 text).filter q = text.filter q := by
  have key : ∀ start s : List Char, text = start ++ s →
      (unmarked p (byteLength start) s).filter q = s.filter q := by
    intro start s hs
    induction s generalizing start with
    | nil => rfl
    | cons c s ih =>
      have hrest := ih (start ++ [c]) (by rw [hs, List.append_assoc]; rfl)
      rw [byteLength_append, byteLength_cons] at hrest
      rw [unmarked]
      cases hp : p (byteLength start) with
      | true =>
        rw [List.filter_cons_of_neg (by simp [h start c s hs hp])]
        exact hrest
      | false =>
        show List.filter q (c :: unmarked p _ s) = _
        rw [List.filter_cons, List.filter_cons]
        exact congrArg (fun t => if q c = true then c :: t else t) hrest
  exact key [] text rfl

/-- No literal character goes with the marks if these are stars and low lines. -/
theorem literal_unmarked {spans : List Span} (h : ∀ e ∈ spans, e.IsDelimited text) :
    literal (unmarked (fun i => spans.any (·.marks i)) 0 text) = literal text :=
  filter_unmarked fun start c more hc hany => by
    obtain ⟨e, he, hmarks⟩ := List.any_eq_true.1 hany
    rcases (h e he).marked start c more hc hmarks with rfl | rfl <;> decide

/-- The stars and ticks that are left are no literal characters either. -/
theorem literal_filter (s : List Char) : literal (s.filter fun c => !isDecoration c) = literal s := by
  rw [literal, literal, List.filter_filter]
  refine List.filter_congr fun c _ => ?_
  cases isDecoration c <;> simp

theorem isBorder_eq_false_iff {c : Char} :
    isBorder c = false ↔ c ≠ '_' ∧ isBlank c = false := by
  rw [isBorder, Bool.or_eq_false_iff, beq_eq_false_iff_ne]

theorem isDecoration_eq_false_iff {c : Char} : isDecoration c = false ↔ c ≠ '*' ∧ c ≠ tick := by
  rw [isDecoration, Bool.or_eq_false_iff, beq_eq_false_iff_ne, beq_eq_false_iff_ne]

/-- What is left of a part of the text that has all of its literal characters. -/
theorem isUndecorated_trimWhile {kept : List Char} (hpart : kept <+ text)
    (hliteral : literal kept = literal text) :
    IsUndecorated text (trimWhile isBorder (kept.filter fun c => !isDecoration c)) := by
  have hplain : ∀ c ∈ kept.filter fun c => !isDecoration c, isDecoration c = false := fun c hc => by
    rw [← Bool.not_eq_true']
    exact (List.mem_filter.1 hc).2
  refine ⟨?_, ?_, ?_, ?_, ?_⟩
  · exact (trimWhile_sublist _ _).trans (List.filter_sublist.trans hpart)
  · exact fun c hc => isDecoration_eq_false_iff.1 (hplain c (mem_of_mem_trimWhile hc))
  · exact fun c hc => isBorder_eq_false_iff.1 (head?_trimWhile hc)
  · exact fun c hc => isBorder_eq_false_iff.1 (getLast?_trimWhile hc)
  · rw [trim, ← hliteral, ← literal_filter kept]
    -- a low line is trimmed with the blanks around it, and it is not literal
    refine filter_trimWhile fun c hc => ?_
    rw [hplain c hc, Bool.false_or, isBorder]
    cases c == '_' <;> simp

theorem isUndecorated_of_withoutMarkup? {spans : List Char → List Span} {shown : List Char}
    (h : ∀ e ∈ spans text, e.IsDelimited text) (hshown : withoutMarkup? spans text = some shown) :
    IsUndecorated text shown := by
  rw [withoutMarkup?_eq fun e he => (h e he).inside] at hshown
  cases hshown
  exact isUndecorated_trimWhile (unmarked_sublist _ _ _) (literal_unmarked h)

/-! ## One line -/

/-- On one line the marks of emphasis are stars and low lines. -/
theorem isDelimited_of_mem_emphasisSpans (h : ∀ c ∈ text, isLineEnd c = false) {e : Span}
    (he : e ∈ emphasisSpans text) : e.IsDelimited text := by
  refine ⟨last_le_of_mem_emphasisSpans he, fun start c more hc hmarks => ?_⟩
  have hany : (emphasisSpans text).any (·.marks (byteLength start)) = true :=
    List.any_eq_true.2 ⟨e, he, hmarks⟩
  rw [any_marks_emphasisSpans hc, List.contains_iff_mem] at hany
  obtain ⟨place, hplace, hposition⟩ := List.mem_map.1 hany
  have hchar : text[start.length]? = some c := by
    rw [hc, List.getElem?_append_right le_rfl, Nat.sub_self]
    rfl
  rw [← hposition, place.getElem?_position] at hchar
  cases hchar
  exact marked_of_mem_allEmphasis h hplace

/-- Nothing but decoration is taken out of a text on one line. -/
theorem isUndecorated_withoutMarkup (h : ∀ c ∈ text, isLineEnd c = false) :
    IsUndecorated text (withoutMarkup text) :=
  isUndecorated_of_withoutMarkup? (fun _ he => isDelimited_of_mem_emphasisSpans h he)
    (withoutMarkup?_emphasisSpans text)

/-- With a second line behind a heading, a blank can go in place of a closing mark. -/
example : withoutMarkup "# _a_\t\nb".toList = "# a_\nb".toList := by decide

/-! ## Every reader -/

/-- Nothing but decoration is taken out of a text, for every reader of markup whose marks are stars and
low lines. -/
theorem exists_withoutMarkup?_isUndecorated {spans : List Char → List Span}
    (h : ∀ e ∈ spans text, e.IsDelimited text) :
    ∃ shown, withoutMarkup? spans text = some shown ∧ IsUndecorated text shown ∧
      (spans = emphasisSpans → shown = withoutMarkup text) := by
  have hsome := withoutMarkup?_eq fun e he => (h e he).inside
  refine ⟨_, hsome, isUndecorated_of_withoutMarkup? h hsome, ?_⟩
  rintro rfl
  rw [withoutMarkup?_emphasisSpans] at hsome
  exact (Option.some.inj hsome).symm

/-- A line with emphasis in emphasis, code, a link, tags and low lines in words. -/
def decoratedLine : String := "- **_Größe_ & *Maß*** of <i>a_b</i> [1](x_y) `__z` _"

/-- What is left of the line. -/
theorem exists_withoutMarkup?_isUndecorated_decoratedLine :
    (∀ e ∈ emphasisSpans decoratedLine.toList, e.IsDelimited decoratedLine.toList) ∧
      ∃ shown, withoutMarkup? emphasisSpans decoratedLine.toList = some shown ∧
        IsUndecorated decoratedLine.toList shown ∧
        shown = "- Größe & Maß of <i>a_b</i> [1](x_y) __z".toList := by
  have oneLine : decoratedLine.toList.any isLineEnd = false := by decide
  have delimited : ∀ e ∈ emphasisSpans decoratedLine.toList, e.IsDelimited decoratedLine.toList :=
    fun e he => isDelimited_of_mem_emphasisSpans
      (fun c hc => Bool.eq_false_iff.2 (List.any_eq_false.1 oneLine c hc)) he
  obtain ⟨shown, hsome, hshown, heq⟩ := exists_withoutMarkup?_isUndecorated delimited
  refine ⟨delimited, shown, hsome, hshown, (heq rfl).trans ?_⟩
  decide +kernel

end Acceptance.Markup
