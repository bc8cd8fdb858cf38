import Mathlib.Data.List.Basic
import Mathlib.Data.List.TakeWhile
import Acceptance.Text.Letter
import Acceptance.Text.Search
import Acceptance.Text.Word

/-!
# Texts with a space behind them

A reader that looks for words and signs finds the same in a text with a space behind it, and leaves
the space with what it leaves. Skipping blanks leaves the space too, unless nothing else is left.

Main results:

* `skipBlanks_append_space`: where the space is skipped with the blanks before it.
* `keyword?_append_space`, `char?_append_space`, `run?_append_space`: readers leave the space.
* `allMatches_append_space`: a search that leaves the space has the same finds.
-/

namespace Acceptance.Text

variable {α β : Type}

/-! ## Blanks -/

theorem allBlank_append_space (s : List Char) : allBlank (s ++ [' ']) = allBlank s := by
  rw [allBlank, allBlank, List.all_append]
  exact Bool.and_true _

/-- The space is dropped only if all characters before it are. -/
theorem dropWhile_append_space (p : Char → Bool) (s : List Char) :
    (s ++ [' ']).dropWhile p = s.dropWhile p ++ [' '] ∨
      (s ++ [' ']).dropWhile p = [] ∧ s.dropWhile p = [] := by
  induction s with
  | nil =>
    rw [List.nil_append, List.dropWhile_cons]
    split_ifs
    · exact .inr ⟨rfl, rfl⟩
    · exact .inl rfl
  | cons c s ih =>
    rw [List.cons_append, List.dropWhile_cons, List.dropWhile_cons]
    split_ifs
    · exact ih
    · exact .inl rfl

/-- A run of other characters ends before the space. -/
theorem dropWhile_append_space_of_neg {p : Char → Bool} (hp : p ' ' = false) (s : List Char) :
    (s ++ [' ']).dropWhile p = s.dropWhile p ++ [' '] := by
  rcases dropWhile_append_space p s with h | ⟨h, -⟩
  · exact h
  · have hall := List.dropWhile_eq_nil_iff.1 h ' ' (List.mem_append_right _ List.mem_cons_self)
    exact absurd (hall.symm.trans hp) (by decide)

theorem skipBlanks_append_space (s : List Char) :
    skipBlanks (s ++ [' ']) = skipBlanks s ++ [' '] ∨
      skipBlanks (s ++ [' ']) = [] ∧ skipBlanks s = [] :=
  dropWhile_append_space isBlank s

/-- What does not see the space does not see it behind blanks either. -/
theorem apply_skipBlanks {f : List Char → β} (h : ∀ u, f (u ++ [' ']) = f u) (s : List Char) :
    f (skipBlanks (s ++ [' '])) = f (skipBlanks s) := by
  rcases skipBlanks_append_space s with he | ⟨he, hs⟩
  · rw [he, h]
  · rw [he, hs]

/-- What finds nothing at the end of the text passes the space on behind blanks too. -/
theorem map_skipBlanks {f : List Char → Option α} {g : α → α} (hf : f [] = none)
    (h : ∀ u, f (u ++ [' ']) = (f u).map g) (s : List Char) :
    f (skipBlanks (s ++ [' '])) = (f (skipBlanks s)).map g := by
  rcases skipBlanks_append_space s with he | ⟨he, hs⟩
  · rw [he, h]
  · rw [he, hs, hf]
    rfl

theorem head?_skipBlanks (s : List Char) :
    (skipBlanks (s ++ [' '])).head? = (skipBlanks s).head? := by
  induction s with
  | nil => rfl
  | cons c s ih =>
    rw [List.cons_append, skipBlanks, skipBlanks, List.dropWhile_cons, List.dropWhile_cons]
    split_ifs
    · exact ih
    · rfl

theorem isEdge_append_space (s : List Char) : isEdge (s ++ [' ']).head? = isEdge s.head? := by
  cases s with
  | nil => rfl
  | cons c s => rfl

/-! ## Readers -/

theorem keyword?_append_space {word : List Char} (hw : ' ' ∉ word) (s : List Char) :
    keyword? word (s ++ [' ']) = (keyword? word s).map (· ++ [' ']) := by
  induction word generalizing s with
  | nil => rfl
  | cons k word ih =>
    cases s with
    | nil =>
      have hk : ¬ (foldLetter ' ' == k) = true := by
        rw [beq_iff_eq]
        rintro rfl
        exact hw List.mem_cons_self
      exact if_neg hk
    | cons c s =>
      rw [List.cons_append, keyword?, keyword?]
      split_ifs
      · exact ih (fun hm => hw (List.mem_cons_of_mem _ hm)) s
      · rfl

theorem anyKeyword?_append_space {words : List (List Char)} (hw : ∀ word ∈ words, ' ' ∉ word)
    (s : List Char) :
    anyKeyword? words (s ++ [' ']) = (anyKeyword? words s).map fun p => (p.1, p.2 ++ [' ']) := by
  induction words with
  | nil => rfl
  | cons word words ih =>
    rw [anyKeyword?, anyKeyword?, keyword?_append_space (hw word List.mem_cons_self)]
    cases keyword? word s with
    | none => exact ih fun w hm => hw w (List.mem_cons_of_mem _ hm)
    | some rest => rfl

theorem char?_append_space {k : Char} (hk : k ≠ ' ') (s : List Char) :
    char? k (s ++ [' ']) = (char? k s).map (· ++ [' ']) := by
  cases s with
  | nil => exact if_neg (by simpa using hk.symm)
  | cons c s =>
    rw [List.cons_append, char?, char?]
    split_ifs <;> rfl

theorem run?_append_space {p : Char → Bool} (hp : p ' ' = false) (s : List Char) :
    run? p (s ++ [' ']) = (run? p s).map fun q => (q.1, q.2 ++ [' ']) := by
  have htake : (s ++ [' ']).takeWhile p = s.takeWhile p := by
    induction s with
    | nil => exact List.takeWhile_cons_of_neg (by simp [hp])
    | cons c s ih => rw [List.cons_append, List.takeWhile_cons, List.takeWhile_cons, ih]
  rw [run?, run?, htake, dropWhile_append_space_of_neg hp]
  cases s.takeWhile p <;> rfl

/-- Behind blanks the space makes no difference for what finds nothing at the end of the text. -/
theorem blanks?_bind_append_space {f : List Char → Option β} (hf : f [] = none)
    (h : ∀ u, f (u ++ [' ']) = f u) (s : List Char) :
    (blanks? (s ++ [' '])).bind f = (blanks? s).bind f := by
  cases s with
  | nil => exact hf
  | cons c s =>
    rw [List.cons_append, blanks?, blanks?]
    split_ifs
    · exact apply_skipBlanks h s
    · rfl

/-! ## Searches -/

theorem matchesFrom_append_space {find? : Option Char → List Char → Option (α × List Char)}
    (hnil : ∀ before, find? before [] = none)
    (h : ∀ before s, find? before (s ++ [' ']) = (find? before s).map fun p => (p.1, p.2 ++ [' ']))
    (offset skip : ℕ) (before : Option Char) (s : List Char) :
    matchesFrom find? offset skip before (s ++ [' ']) = matchesFrom find? offset skip before s := by
  induction s generalizing offset skip before with
  | nil =>
    cases skip with
    | zero =>
      have hs : find? before [' '] = none := by
        rw [← List.nil_append [' '], h, hnil]
        rfl
      show matchesFrom find? offset 0 before [' '] = []
      rw [matchesFrom, hs, matchesFrom]
    | succ skip => rfl
  | cons c s ih =>
    cases skip with
    | zero =>
      have hc := h before (c :: s)
      rw [List.cons_append] at hc ⊢
      rw [matchesFrom, matchesFrom, hc]
      cases find? before (c :: s) with
      | none => exact ih ..
      | some p =>
        have hlen : (s ++ [' ']).length - (p.2 ++ [' ']).length = s.length - p.2.length := by
          rw [List.length_append, List.length_append]
          omega
        simp only [Option.map_some, hlen, ih]
    | succ skip =>
      rw [List.cons_append, matchesFrom, matchesFrom, ih]

theorem allMatches_append_space {find? : Option Char → List Char → Option (α × List Char)}
    (hnil : ∀ before, find? before [] = none)
    (h : ∀ before s, find? before (s ++ [' ']) = (find? before s).map fun p => (p.1, p.2 ++ [' ']))
    (s : List Char) : allMatches find? (s ++ [' ']) = allMatches find? s :=
  matchesFrom_append_space hnil h 0 0 none s

end Acceptance.Text
