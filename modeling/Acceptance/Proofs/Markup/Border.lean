import Mathlib.Data.List.Basic
import Acceptance.Markup.Strip
import Acceptance.Proofs.Markup.Forward
import Acceptance.Proofs.Text.Trim

/-!
# Decoration at the ends of a text

Emphasis takes nothing but stars and low lines out of a text on one line, wherever it is found. So what
stands between decoration at both ends is all that is left of such a text, if it holds no decoration
itself. For this it does not matter how the text is read as markup.

Main results:

* `marked_of_mem_allEmphasis`: what emphasis takes out are marks.
* `withoutMarkup_append`: a text with decoration at both ends.
-/

namespace Acceptance.Markup

open Text
open scoped List

variable {text : List Char}

/-- Whether a text has neither decoration nor line ends, nor blanks at its own ends. -/
structure IsKept (s : List Char) : Prop where
  ne_nil : s ≠ []
  plain : ∀ c ∈ s, c ≠ '_' ∧ isDecoration c = false ∧ isLineEnd c = false
  first : ∀ c ∈ s.head?, isBorder c = false
  last : ∀ c ∈ s.getLast?, isBorder c = false

/-- Whether a character is a mark or a space. -/
def isFrame (c : Char) : Bool := c == '*' || c == '_' || c == ' '

theorem isFrame_spec {c : Char} (h : isFrame c = true) :
    (isBorder c || isDecoration c) = true ∧ isLineEnd c = false := by
  rw [isFrame, Bool.or_eq_true, Bool.or_eq_true, beq_iff_eq, beq_iff_eq, beq_iff_eq] at h
  rcases h with (rfl | rfl) | rfl <;> decide

/-- On one line emphasis takes out nothing but marks. -/
theorem marked_of_mem_allEmphasis (h : ∀ c ∈ text, isLineEnd c = false) {place : Place text}
    (hp : place ∈ allEmphasis text) : place.char = '*' ∨ place.char = '_' := by
  obtain ⟨p, hpassage, hp⟩ := List.mem_flatMap.1 hp
  obtain ⟨e, -, hp⟩ := List.mem_flatMap.1 hp
  have hmargin : p.margin = [] := by
    by_contra hne
    obtain ⟨q, hq, hend⟩ := (isOrdered_of_mem_passages hpassage).ended hne
    have hmem : q.char ∈ spelled (places text) := List.mem_map_of_mem hq
    rw [places_map_char] at hmem
    rw [h q.char hmem] at hend
    cases hend
  rw [Passage.taken_of_margin hmargin] at hp
  obtain ⟨mark, -, rfl⟩ := List.mem_map.1 hp
  exact mark.marked

theorem getElem?_middle {front middle : List Char} {c : Char} {i : ℕ} (hle : front.length ≤ i)
    (h : middle[i - front.length]? = some c) (back : List Char) :
    (front ++ middle ++ back)[i]? = some c := by
  obtain ⟨hlt, -⟩ := List.getElem?_eq_some_iff.1 h
  rwa [List.append_assoc, List.getElem?_append_right hle, List.getElem?_append_left hlt]

/-- The middle of a text stays if nothing in it is taken out. -/
theorem exists_without_append {front middle back : List Char}
    {removed : List (Place (front ++ middle ++ back))} (h : ∀ place ∈ removed, place.char ∉ middle) :
    ∃ before behind, without removed = before ++ middle ++ behind ∧ before <+ front ∧
      behind <+ back := by
  have hpart (keep : Char × ℕ → Bool) (part : List Char) (k : ℕ) :
      ((part.zipIdx k).filter keep).map Prod.fst <+ part := by
    have hsub := (List.filter_sublist (l := part.zipIdx k) (p := keep)).map Prod.fst
    rwa [List.zipIdx_map_fst] at hsub
  unfold without
  extract_lets positions
  have hmiddle : ((middle.zipIdx (0 + front.length)).filter
      fun p => !positions.contains p.2).map Prod.fst = middle := by
    conv_rhs => rw [← List.zipIdx_map_fst (0 + front.length) middle]
    refine congrArg (List.map Prod.fst) (List.filter_eq_self.2 fun p hp => ?_)
    obtain ⟨c, i⟩ := p
    rw [Bool.not_eq_true', ← Bool.not_eq_true, List.contains_iff_mem]
    intro hi
    obtain ⟨place, hplace, rfl : place.position = i⟩ := List.mem_map.1 hi
    obtain ⟨hle, hget⟩ := List.mk_mem_zipIdx_iff_le_and_getElem?_sub.1 hp
    rw [Nat.zero_add] at hle hget
    have hchar := getElem?_middle hle hget back
    rw [Place.getElem?_position] at hchar
    exact h place hplace (Option.some.inj hchar ▸ List.mem_of_getElem? hget)
  rw [List.zipIdx_append, List.zipIdx_append, List.filter_append, List.filter_append,
    List.map_append, List.map_append, hmiddle]
  exact ⟨_, _, rfl, hpart _ _ _, hpart _ _ _⟩

/-- Decoration at both ends of a text is all that is taken away from it. -/
theorem withoutMarkup_append {front middle back : List Char}
    (hfront : ∀ c ∈ front, isFrame c = true) (hback : ∀ c ∈ back, isFrame c = true)
    (h : IsKept middle) : withoutMarkup (front ++ middle ++ back) = middle := by
  have hline : ∀ c ∈ front ++ middle ++ back, isLineEnd c = false := by
    intro c hc
    rw [List.mem_append, List.mem_append] at hc
    rcases hc with (hc | hc) | hc
    · exact (isFrame_spec (hfront c hc)).2
    · exact (h.plain c hc).2.2
    · exact (isFrame_spec (hback c hc)).2
  have hkept : ∀ place ∈ allEmphasis (front ++ middle ++ back), place.char ∉ middle := by
    intro place hplace hm
    obtain ⟨hlow, hplain, -⟩ := h.plain _ hm
    rcases marked_of_mem_allEmphasis hline hplace with hc | hc
    · rw [hc] at hplain
      cases hplain
    · exact hlow hc
  have hborder {s t : List Char} (hs : s <+ t) (ht : ∀ c ∈ t, isFrame c = true) :
      ∀ c ∈ s.filter fun c => !isDecoration c, isBorder c = true := by
    intro c hc
    obtain ⟨hc, hplain⟩ := List.mem_filter.1 hc
    have hframe := (isFrame_spec (ht c (hs.mem hc))).1
    rw [Bool.not_eq_true'] at hplain
    rwa [hplain, Bool.or_false] at hframe
  have hself : middle.filter (fun c => !isDecoration c) = middle :=
    List.filter_eq_self.2 fun c hc => by rw [(h.plain c hc).2.1]; rfl
  obtain ⟨before, behind, hwithout, hbefore, hbehind⟩ := exists_without_append hkept
  rw [withoutMarkup, hwithout, List.filter_append, List.filter_append, hself]
  exact trimWhile_append (hborder hbefore hfront) (hborder hbehind hback) h.first h.last

end Acceptance.Markup
