/-!
# Lines

A line ends at a line feed; a carriage return directly before that line feed belongs to the line
end. A last piece without a line feed is a line if it is not empty, and a carriage return at its
end stays.

Results:
* `lines_newline`, `lines_return_newline`: a line feed ends a line, alone or behind a carriage
  return.
* `not_mem_of_mem_lines`: no line holds a line feed.
-/

namespace Acceptance.Text

/-- The lines of a text, without their line ends. -/
def lines : List Char → List (List Char)
  | [] => []
  | '\n' :: rest => [] :: lines rest
  | '\r' :: '\n' :: rest => [] :: lines rest
  | c :: rest =>
    match lines rest with
    | [] => [[c]]
    | line :: more => (c :: line) :: more

/-! ## First laws -/

@[simp] theorem lines_newline (s : List Char) : lines ('\n' :: s) = [] :: lines s := by
  simp [lines]

@[simp] theorem lines_return_newline (s : List Char) :
    lines ('\r' :: '\n' :: s) = [] :: lines s := by
  simp [lines]

theorem lines_cons {c : Char} {s : List Char} (h : c ≠ '\n')
    (h' : c = '\r' → s.head? ≠ some '\n') :
    lines (c :: s) = match lines s with
      | [] => [[c]]
      | line :: more => (c :: line) :: more := by
  conv => lhs; unfold lines
  split
  · simp_all
  · simp_all
  · simp_all
  · next h1 => simp_all

/-- No line holds a line feed. -/
theorem not_mem_of_mem_lines {s line : List Char} (h : line ∈ lines s) : '\n' ∉ line := by
  fun_induction lines s generalizing line with
  | case1 => simp at h
  | case2 rest ih =>
    rcases List.mem_cons.1 h with rfl | h
    · simp
    · exact ih h
  | case3 rest ih =>
    rcases List.mem_cons.1 h with rfl | h
    · simp
    · exact ih h
  | case4 c rest h1 h2 heq ih =>
    have : line = [c] := by simpa using h
    subst this
    intro hc
    exact h1 (List.mem_singleton.1 hc).symm
  | case5 c rest h1 h2 l more heq ih =>
    rcases List.mem_cons.1 h with rfl | h
    · intro hc
      rcases List.mem_cons.1 hc with hc | hc
      · exact h1 hc.symm
      · exact ih (heq ▸ List.mem_cons_self) hc
    · exact ih (heq ▸ List.mem_cons_of_mem _ h)

end Acceptance.Text
