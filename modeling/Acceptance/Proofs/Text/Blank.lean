import Mathlib.Data.List.DropRight
import Acceptance.Text.Blank

/-!
# Trimming

Trimming at the end stops at the last character that is not blank, whatever stands before it. So a
text with such a character in it can be trimmed behind that character alone.

Main results:

* `trimEnd_append_cons`: what stands up to a character that is not blank stays.
* `not_isBlank_of_getLast?_trimEnd`: a trimmed text does not end with a blank.
* `mem_of_mem_words`: words are made of the characters that are not blank.
-/

namespace Acceptance.Text

@[simp] theorem trimEnd_nil : trimEnd [] = [] := rfl

theorem mem_of_mem_trimEnd {c : Char} {s : List Char} (h : c ∈ trimEnd s) : c ∈ s := by
  rw [trimEnd, dropEndWhile, List.mem_reverse] at h
  exact List.mem_reverse.1 ((List.dropWhile_sublist _).mem h)

theorem trimEnd_append_cons {c : Char} (hc : isBlank c = false) (s t : List Char) :
    trimEnd (s ++ c :: t) = s ++ c :: trimEnd t := by
  have key : ∀ r : List Char, (r ++ c :: s.reverse).dropWhile isBlank =
      r.dropWhile isBlank ++ c :: s.reverse := by
    intro r
    induction r with
    | nil => simp [hc]
    | cons d r ih =>
      rw [List.cons_append, List.dropWhile_cons, List.dropWhile_cons]
      split_ifs with hd
      · exact ih
      · rfl
  rw [trimEnd, dropEndWhile, List.reverse_append, List.reverse_cons, List.append_assoc,
    List.singleton_append, key, List.reverse_append, List.reverse_cons, List.reverse_reverse,
    List.append_assoc]
  rfl

theorem trimEnd_cons {c : Char} (hc : isBlank c = false) (s : List Char) :
    trimEnd (c :: s) = c :: trimEnd s :=
  trimEnd_append_cons hc [] s

/-- A text that ends with a character that is not blank is trimmed. -/
theorem trimEnd_concat {c : Char} (hc : isBlank c = false) (s : List Char) :
    trimEnd (s ++ [c]) = s ++ [c] :=
  trimEnd_append_cons hc s []

theorem not_isBlank_of_getLast?_trimEnd {c : Char} {s : List Char}
    (h : (trimEnd s).getLast? = some c) : isBlank c = false := by
  rw [trimEnd, dropEndWhile, List.getLast?_reverse] at h
  have := List.head?_dropWhile_not isBlank s.reverse
  rw [h] at this
  simpa using this

theorem skipBlanks_cons {c : Char} (hc : isBlank c = false) (s : List Char) :
    skipBlanks (c :: s) = c :: s := by
  rw [skipBlanks, List.dropWhile_cons, if_neg (by simp [hc])]

theorem skipBlanks_append_of_allBlank {blanks s : List Char} (h : allBlank blanks = true)
    (hs : ∀ c ∈ s.head?, isBlank c = false) : skipBlanks (blanks ++ s) = s := by
  rw [skipBlanks, List.dropWhile_append_of_pos (List.all_eq_true.1 h)]
  cases s with
  | nil => rfl
  | cons c s => exact skipBlanks_cons (hs c rfl) s

theorem skipBlanks_append_cons {blanks : List Char} (h : allBlank blanks = true) {c : Char}
    (hc : isBlank c = false) (s : List Char) : skipBlanks (blanks ++ c :: s) = c :: s :=
  skipBlanks_append_of_allBlank h (by rintro d ⟨⟩; exact hc)

/-- The blanks that are skipped. -/
theorem exists_skipBlanks (s : List Char) :
    ∃ blanks, s = blanks ++ skipBlanks s ∧ allBlank blanks = true :=
  ⟨s.takeWhile isBlank, List.takeWhile_append_dropWhile.symm, List.all_takeWhile⟩

theorem trim_skipBlanks (s : List Char) : trim (skipBlanks s) = trim s := by
  rw [trim_eq_trimEnd_trimStart, trim_eq_trimEnd_trimStart, skipBlanks, skipBlanks,
    List.dropWhile_idempotent]

/-- A trimmed text does not start with a blank. -/
theorem skipBlanks_of_trim {s : List Char} (h : trim s = s) : skipBlanks s = s := by
  have hle : (trim s).length ≤ (skipBlanks s).length := by
    rw [trim_eq_trimEnd_trimStart, trimEnd, dropEndWhile, List.length_reverse]
    exact Nat.le_trans (List.dropWhile_sublist isBlank).length_le (Nat.le_of_eq List.length_reverse)
  rw [h] at hle
  exact (List.dropWhile_suffix isBlank).eq_of_length_le hle

/-- Spaces in front of a text do not count. -/
theorem skipBlanks_replicate_append (n : ℕ) (s : List Char) :
    skipBlanks (List.replicate n ' ' ++ s) = skipBlanks s := by
  induction n with
  | zero => rfl
  | succ n ih =>
    rw [List.replicate_succ, List.cons_append, skipBlanks, List.dropWhile_cons,
      if_pos (by rfl), ← ih]
    rfl

theorem trimWhile_congr {p q : Char → Bool} {s : List Char} (h : ∀ c ∈ s, p c = q c) :
    trimWhile p s = trimWhile q s := by
  have drop (t : List Char) (ht : ∀ c ∈ t, p c = q c) : t.dropWhile p = t.dropWhile q := by
    induction t with
    | nil => rfl
    | cons c t ih =>
      rw [List.dropWhile_cons, List.dropWhile_cons, ht c List.mem_cons_self,
        ih fun d hd => ht d (List.mem_cons_of_mem c hd)]
  have hmem : ∀ c ∈ (s.dropWhile q).reverse, p c = q c := fun c hc =>
    h c ((List.dropWhile_sublist q).mem (List.mem_reverse.1 hc))
  rw [trimWhile, trimWhile, dropEndWhile, dropEndWhile, drop s h, drop _ hmem]

theorem mem_of_mem_words {s w : List Char} {c : Char} (hw : w ∈ words s) (hc : c ∈ w) :
    c ∈ s ∧ isBlank c = false := by
  induction s generalizing w with
  | nil => cases hw
  | cons d s ih =>
    have later : c ∈ s ∧ isBlank c = false → c ∈ d :: s ∧ isBlank c = false :=
      fun h => ⟨List.mem_cons_of_mem _ h.1, h.2⟩
    rw [words] at hw
    split_ifs at hw with hd
    · exact later (ih hw hc)
    have here : c = d → c ∈ d :: s ∧ isBlank c = false := by
      rintro rfl
      exact ⟨List.mem_cons_self, by simpa using hd⟩
    split at hw
    · next e v vs _ hv =>
      rw [hv] at ih
      split_ifs at hw with he
      · rcases List.mem_cons.1 hw with rfl | hw
        · exact here (List.mem_singleton.1 hc)
        · exact later (ih hw hc)
      · rcases List.mem_cons.1 hw with rfl | hw
        · exact (List.mem_cons.1 hc).elim here fun hc => later (ih List.mem_cons_self hc)
        · exact later (ih (List.mem_cons_of_mem _ hw) hc)
    · rcases List.mem_cons.1 hw with rfl | hw
      · exact here (List.mem_singleton.1 hc)
      · exact later (ih hw hc)

end Acceptance.Text
