import Mathlib.Data.List.Basic
import Acceptance.Text.Lines

/-!
# Lines of a text in parts

A text that ends with a line end has no piece of a line left over, so the lines of a text behind it
follow its own, and it has as many lines as line feeds.

Main results:

* `lines_append`: the lines of two texts one after the other.
* `lines_concat_newline`: the lines of a text with a line feed behind it.
* `length_lines_eq`: the number of lines.
* `map_withoutEnd_pieces`: the lines are cut out of the text with their ends, which are left out.
-/

namespace Acceptance.Text

/-- Whether a text has no piece of a line at its end: it is empty or ends with a line feed. -/
def EndsWithLine (s : List Char) : Prop := ∀ c ∈ s.getLast?, c = '\n'

instance (s : List Char) : Decidable (EndsWithLine s) :=
  decidable_of_iff (s.getLast?.all (· == '\n') = true) (by
    unfold EndsWithLine
    cases s.getLast? <;> simp)

theorem endsWithLine_cons_iff {c : Char} {s : List Char} :
    EndsWithLine (c :: s) ↔ EndsWithLine s ∧ (s = [] → c = '\n') := by
  unfold EndsWithLine
  rw [List.getLast?_cons]
  cases hs : s.getLast? with
  | none => simp [List.getLast?_eq_none_iff.1 hs]
  | some d =>
    have hne : s ≠ [] := by
      rintro rfl
      cases hs
    simp [hne]

theorem EndsWithLine.of_cons {c : Char} {s : List Char} (h : EndsWithLine (c :: s)) :
    EndsWithLine s :=
  (endsWithLine_cons_iff.1 h).1

/-- A character other than a line feed has a line end behind it. -/
theorem EndsWithLine.ne_nil {c : Char} {s : List Char} (h : EndsWithLine (c :: s))
    (hc : c ≠ '\n') : s ≠ [] :=
  fun hs => hc ((endsWithLine_cons_iff.1 h).2 hs)

theorem lines_eq_nil_iff {s : List Char} : lines s = [] ↔ s = [] := by
  fun_cases lines s with
  | case1 => simp
  | case2 rest => simp
  | case3 rest => simp
  | case4 c rest => simp
  | case5 c rest => simp

theorem lines_append {s : List Char} (h : EndsWithLine s) (t : List Char) :
    lines (s ++ t) = lines s ++ lines t := by
  fun_induction lines s with
  | case1 => rfl
  | case2 rest ih => rw [List.cons_append, lines_newline, ih h.of_cons, List.cons_append]
  | case3 rest ih =>
    rw [List.cons_append, List.cons_append, lines_return_newline, ih h.of_cons.of_cons,
      List.cons_append]
  | case4 c rest hc hr heq ih => exact absurd (lines_eq_nil_iff.1 heq) (h.ne_nil hc)
  | case5 c rest hc hr line more heq ih =>
    have hr' : c = '\r' → (rest ++ t).head? ≠ some '\n' := by
      intro hcr
      cases rest with
      | nil => exact absurd rfl (h.ne_nil hc)
      | cons d rest =>
        rw [List.cons_append, List.head?_cons]
        rintro ⟨⟩
        exact hr rest hcr rfl
    rw [List.cons_append, lines_cons hc hr', ih h.of_cons, heq]
    rfl

/-- A line feed behind a text ends its last line, or makes an empty one if that has ended. -/
theorem lines_concat_newline {s : List Char} (h : s.getLast? ≠ some '\r') :
    lines (s ++ ['\n']) = lines s ++ if EndsWithLine s then [[]] else [] := by
  fun_induction lines s with
  | case1 => rfl
  | case2 rest ih =>
    have hrest : rest.getLast? ≠ some '\r' := fun he => h (by rw [List.getLast?_cons, he]; rfl)
    have hends : EndsWithLine ('\n' :: rest) ↔ EndsWithLine rest := by
      simp [endsWithLine_cons_iff]
    rw [List.cons_append, lines_newline, ih hrest, List.cons_append]
    simp only [hends]
  | case3 rest ih =>
    have hrest : rest.getLast? ≠ some '\r' := fun he => h (by
      rw [List.getLast?_cons, List.getLast?_cons, he]; rfl)
    have hends : EndsWithLine ('\r' :: '\n' :: rest) ↔ EndsWithLine rest := by
      simp [endsWithLine_cons_iff]
    rw [List.cons_append, List.cons_append, lines_return_newline, ih hrest, List.cons_append]
    simp only [hends]
  | case4 c rest hc hr heq ih =>
    obtain rfl := lines_eq_nil_iff.1 heq
    have hends : ¬EndsWithLine [c] := fun he => he.ne_nil hc rfl
    have hreturn : c ≠ '\r' := by
      rintro rfl
      exact h rfl
    rw [if_neg hends, List.singleton_append, lines_cons hc fun he => absurd he hreturn]
    rfl
  | case5 c rest hc hr line more heq ih =>
    obtain ⟨d, rest, rfl⟩ : ∃ d more, rest = d :: more :=
      List.exists_cons_of_ne_nil (by rintro rfl; cases heq)
    have hrest : (d :: rest).getLast? ≠ some '\r' := by rwa [List.getLast?_cons_cons] at h
    have hends : EndsWithLine (c :: d :: rest) ↔ EndsWithLine (d :: rest) := by
      simp [endsWithLine_cons_iff]
    have hr' : c = '\r' → (d :: rest ++ ['\n']).head? ≠ some '\n' := by
      rintro hcr ⟨⟩
      exact hr rest hcr rfl
    rw [List.cons_append, lines_cons hc hr', ih hrest, heq]
    simp only [hends]
    rfl

/-- A text has a line for each line feed, and one more for a piece left over. -/
theorem length_lines_eq (s : List Char) :
    (lines s).length = s.count '\n' + if EndsWithLine s then 0 else 1 := by
  fun_induction lines s with
  | case1 => rfl
  | case2 rest ih =>
    simp only [endsWithLine_cons_iff, imp_true_iff, and_true]
    rw [List.length_cons, ih, List.count_cons_self]
    omega
  | case3 rest ih =>
    have hr : EndsWithLine ('\r' :: '\n' :: rest) ↔ EndsWithLine rest := by
      simp [endsWithLine_cons_iff]
    rw [List.length_cons, ih, List.count_cons_of_ne (by decide), List.count_cons_self]
    simp only [hr]
    omega
  | case4 c rest hc hr heq ih =>
    obtain rfl := lines_eq_nil_iff.1 heq
    rw [if_neg fun h : EndsWithLine [c] => h.ne_nil hc rfl, List.count_cons_of_ne hc]
    rfl
  | case5 c rest hc hr line more heq ih =>
    have hne : rest ≠ [] := by
      rintro rfl
      cases heq
    have hiff : EndsWithLine (c :: rest) ↔ EndsWithLine rest := by
      simp [endsWithLine_cons_iff, hne]
    rw [heq] at ih
    rw [List.count_cons_of_ne hc]
    simp only [hiff]
    exact ih

theorem length_lines {s : List Char} (h : EndsWithLine s) : (lines s).length = s.count '\n' := by
  rw [length_lines_eq, if_pos h, Nat.add_zero]

/-! ## Lines with their line ends -/

/-- The lines of a text with their line ends. -/
def pieces : List Char → List (List Char)
  | [] => []
  | c :: rest =>
    if c = '\n' then ['\n'] :: pieces rest
    else
      match pieces rest with
      | [] => [[c]]
      | piece :: more => (c :: piece) :: more

/-- A line without its line end: a line feed, and a carriage return in front of it. -/
def withoutEnd : List Char → List Char
  | [] => []
  | ['\n'] => []
  | ['\r', '\n'] => []
  | c :: rest => c :: withoutEnd rest

@[simp] theorem pieces_newline (s : List Char) : pieces ('\n' :: s) = ['\n'] :: pieces s := by
  rw [pieces, if_pos rfl]

theorem pieces_cons {c : Char} (hc : c ≠ '\n') (s : List Char) :
    pieces (c :: s) = match pieces s with
      | [] => [[c]]
      | piece :: more => (c :: piece) :: more := by
  rw [pieces, if_neg hc]

@[simp] theorem flatten_pieces (s : List Char) : (pieces s).flatten = s := by
  induction s with
  | nil => rfl
  | cons c s ih =>
    by_cases hc : c = '\n'
    · rw [hc, pieces_newline, List.flatten_cons, ih]
      rfl
    · rw [pieces_cons hc]
      cases hs : pieces s with
      | nil =>
        rw [hs] at ih
        rw [← ih]
        rfl
      | cons piece more =>
        rw [hs] at ih
        rw [← ih]
        rfl

theorem withoutEnd_cons {c : Char} {s : List Char} (h : s = [] → c ≠ '\n')
    (h' : c = '\r' → s ≠ ['\n']) : withoutEnd (c :: s) = c :: withoutEnd s := by
  rw [withoutEnd]
  · rintro rfl rfl
    exact h rfl rfl
  · rintro rfl rfl
    exact h' rfl rfl

/-- The lines of a text are its pieces without their ends. -/
theorem map_withoutEnd_pieces (s : List Char) : (pieces s).map withoutEnd = lines s := by
  fun_induction lines s with
  | case1 => rfl
  | case2 rest ih => rw [pieces_newline, List.map_cons, ih]; rfl
  | case3 rest ih =>
    rw [pieces_cons (by decide), pieces_newline, List.map_cons, ih]
    rfl
  | case4 c rest h1 h2 heq ih =>
    obtain rfl := lines_eq_nil_iff.1 heq
    rw [pieces_cons h1, pieces, List.map_singleton, withoutEnd_cons (fun _ => h1) (by simp)]
    rfl
  | case5 c rest h1 h2 line more heq ih =>
    rw [heq] at ih
    cases hp : pieces rest with
    | nil =>
      rw [hp] at ih
      cases ih
    | cons piece ps =>
      have hfeed : c = '\r' → piece ≠ ['\n'] := by
        rintro rfl rfl
        have hrest := flatten_pieces rest
        rw [hp] at hrest
        exact h2 _ rfl hrest.symm
      rw [hp, List.map_cons] at ih
      obtain ⟨hline, hmore⟩ := List.cons.inj ih
      rw [pieces_cons h1, hp]
      show withoutEnd (c :: piece) :: ps.map withoutEnd = (c :: line) :: more
      rw [withoutEnd_cons (fun _ => h1) hfeed, hline, hmore]

end Acceptance.Text
