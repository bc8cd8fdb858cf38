import Mathlib.Data.List.Basic
import Acceptance.Proofs.Text.Reader

/-!
# Trimming at both ends

What is trimmed stands in front of the text that is kept and behind it. So a text without some of its
characters is trimmed as what is kept of it is, if no trimmed character is among them.

Main results:

* `exists_trimWhile`: the characters that are trimmed.
* `trimWhile_append`: what stands between characters that are trimmed.
* `filter_trimWhile`: a text can be trimmed before or after characters are taken out of it.
* `length_trimWhile_filter_lt`: a trimmed text is shorter if characters of it are left out.
-/

namespace Acceptance.Text

open scoped List

variable {p q r : Char → Bool} {s : List Char}

theorem exists_dropEndWhile (p : Char → Bool) (s : List Char) :
    ∃ back, s = dropEndWhile p s ++ back ∧ ∀ c ∈ back, p c = true := by
  refine ⟨(s.reverse.takeWhile p).reverse, ?_, fun c hc => ?_⟩
  · rw [dropEndWhile, ← List.reverse_append, List.takeWhile_append_dropWhile, List.reverse_reverse]
  · exact List.all_eq_true.1 List.all_takeWhile c (List.mem_reverse.1 hc)

/-- The characters that are trimmed. -/
theorem exists_trimWhile (p : Char → Bool) (s : List Char) :
    ∃ front back, s = front ++ trimWhile p s ++ back ∧ (∀ c ∈ front, p c = true) ∧
      ∀ c ∈ back, p c = true := by
  obtain ⟨back, hdrop, hback⟩ := exists_dropEndWhile p (s.dropWhile p)
  refine ⟨s.takeWhile p, back, ?_, List.all_eq_true.1 List.all_takeWhile, hback⟩
  rw [List.append_assoc, trimWhile, ← hdrop, List.takeWhile_append_dropWhile]

theorem trimWhile_sublist (p : Char → Bool) (s : List Char) : trimWhile p s <+ s := by
  obtain ⟨front, back, hs, -, -⟩ := exists_trimWhile p s
  conv_rhs => rw [hs, List.append_assoc]
  exact (List.sublist_append_left _ back).trans (List.sublist_append_right front _)

theorem head?_trimWhile {c : Char} (h : c ∈ (trimWhile p s).head?) : p c = false := by
  obtain ⟨back, hback, -⟩ := exists_dropEndWhile p (s.dropWhile p)
  refine head?_dropWhile (s := s) ?_
  rw [hback, List.head?_append, ← trimWhile, Option.mem_def.1 h]
  rfl

theorem getLast?_trimWhile {c : Char} (h : c ∈ (trimWhile p s).getLast?) : p c = false := by
  rw [trimWhile, dropEndWhile, List.getLast?_reverse] at h
  exact head?_dropWhile h

theorem filter_dropWhile (h : ∀ c ∈ s, if q c then p c = r c else p c = true) :
    (s.dropWhile p).filter q = (s.filter q).dropWhile r := by
  induction s with
  | nil => rfl
  | cons c s ih =>
    have hc := h c List.mem_cons_self
    have hrest := ih fun d hd => h d (List.mem_cons_of_mem c hd)
    cases hq : q c with
    | false =>
      rw [hq] at hc
      rw [List.dropWhile_cons_of_pos hc, List.filter_cons_of_neg (by simp [hq]), hrest]
    | true =>
      rw [hq, if_pos rfl] at hc
      rw [List.filter_cons_of_pos hq]
      cases hp : p c with
      | false =>
        rw [List.dropWhile_cons_of_neg (by simp [hp]), List.dropWhile_cons_of_neg (by simp [← hc, hp]),
          List.filter_cons_of_pos hq]
      | true =>
        rw [List.dropWhile_cons_of_pos hp, List.dropWhile_cons_of_pos (hc ▸ hp), hrest]

/-- A text can be trimmed before or after characters are taken out of it, if all of these are trimmed
at its ends. -/
theorem filter_trimWhile (h : ∀ c ∈ s, if q c then p c = r c else p c = true) :
    (trimWhile p s).filter q = trimWhile r (s.filter q) := by
  have hend : ∀ c ∈ (s.dropWhile p).reverse, if q c then p c = r c else p c = true := fun c hc =>
    h c ((List.dropWhile_sublist p).mem (List.mem_reverse.1 hc))
  rw [trimWhile, trimWhile, dropEndWhile, dropEndWhile, List.filter_reverse, filter_dropWhile hend,
    List.filter_reverse, filter_dropWhile h]

/-- Characters that are trimmed do not count at the ends of a text. -/
theorem trimWhile_append_append {front back : List Char} (hfront : ∀ c ∈ front, p c = true)
    (hback : ∀ c ∈ back, p c = true) : trimWhile p (front ++ s ++ back) = trimWhile p s := by
  have hnil : back.dropWhile p = [] := List.dropWhile_eq_nil_iff.2 hback
  rw [trimWhile, List.append_assoc, List.dropWhile_append_of_pos hfront, List.dropWhile_append,
    trimWhile]
  split_ifs with hs
  · rw [hnil, List.isEmpty_iff.1 hs]
  · rw [dropEndWhile, List.reverse_append,
      List.dropWhile_append_of_pos fun c hc => hback c (List.mem_reverse.1 hc), dropEndWhile]

/-- What stands between characters that are trimmed. -/
theorem trimWhile_append {front middle back : List Char} (hfront : ∀ c ∈ front, p c = true)
    (hback : ∀ c ∈ back, p c = true) (hfirst : ∀ c ∈ middle.head?, p c = false)
    (hlast : ∀ c ∈ middle.getLast?, p c = false) :
    trimWhile p (front ++ middle ++ back) = middle := by
  have hkept {t : List Char} (ht : ∀ c ∈ t.head?, p c = false) : t.dropWhile p = t := by
    cases t with
    | nil => rfl
    | cons c t => exact List.dropWhile_cons_of_neg (by simp [ht c rfl])
  rw [List.getLast?_eq_head?_reverse] at hlast
  rw [trimWhile_append_append hfront hback, trimWhile, hkept hfirst, dropEndWhile, hkept hlast,
    List.reverse_reverse]

/-- What is trimmed can be left out before other characters are. -/
theorem trimWhile_filter (h : ∀ c, p c = true → q c = true) :
    trimWhile p (s.filter q) = trimWhile p ((trimWhile p s).filter q) := by
  obtain ⟨front, back, hs, hfront, hback⟩ := exists_trimWhile p s
  have hkept {t : List Char} (ht : ∀ c ∈ t, p c = true) : t.filter q = t :=
    List.filter_eq_self.2 fun c hc => h c (ht c hc)
  conv_lhs => rw [hs, List.filter_append, List.filter_append, hkept hfront, hkept hback]
  exact trimWhile_append_append hfront hback

/-- A trimmed text is shorter if characters of it are left out. -/
theorem length_trimWhile_filter_lt (h : ∀ c, p c = true → q c = true) {c : Char} (hc : c ∈ s)
    (hq : q c = false) : (trimWhile p (s.filter q)).length < (trimWhile p s).length := by
  obtain ⟨front, back, hs, hfront, hback⟩ := exists_trimWhile p s
  have hother {t : List Char} (ht : ∀ d ∈ t, p d = true) : c ∉ t := by
    intro hmem
    rw [h c (ht c hmem)] at hq
    cases hq
  have hmem : c ∈ trimWhile p s := by
    rw [hs, List.mem_append, List.mem_append] at hc
    rcases hc with (hc | hc) | hc
    · exact absurd hc (hother hfront)
    · exact hc
    · exact absurd hc (hother hback)
  calc (trimWhile p (s.filter q)).length
      = (trimWhile p ((trimWhile p s).filter q)).length := by rw [trimWhile_filter h]
    _ ≤ ((trimWhile p s).filter q).length := (trimWhile_sublist _ _).length_le
    _ < (trimWhile p s).length := List.length_filter_lt_length_iff_exists.2 ⟨c, hmem, by simp [hq]⟩

end Acceptance.Text
