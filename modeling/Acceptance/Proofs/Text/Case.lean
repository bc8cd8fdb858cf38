import Mathlib.Data.List.Basic
import Acceptance.Text.Case
import Acceptance.Text.Search

/-!
# Lower case and search over several texts

A character that has no case, and is not passed over when the neighbours of a sigma are looked at,
ends the words on both sides of it. So texts with such characters between them are put into lower case
one by one, and a word without a space is found in one of the texts that spaces are put between.

Main results:

* `lowercase_append_cons`: lower case on both sides of a character without case.
* `lowercase_spaced`: lower case of texts with spaces between them.
* `exists_of_spaced_eq`: an occurrence of a word lies in one of the texts.
-/

namespace Acceptance.Text

/-! ## Lower case -/

section Break

variable {c : Char}

theorem startsCased_append_cons (hcased : isCased c = false) (hcounts : isCaseIgnorable c = false)
    (s t : List Char) : startsCased (s ++ c :: t) = startsCased s := by
  rw [startsCased, startsCased, List.dropWhile_append]
  split_ifs with hs
  · rw [List.dropWhile_cons_of_neg (by simp [hcounts]), List.isEmpty_iff.1 hs, List.head?_cons,
      Option.any_some, hcased]
    rfl
  · rw [List.head?_append_of_ne_nil _ fun h => hs (List.isEmpty_iff.2 h)]

/-- The texts on both sides of a character without case do not depend on each other. -/
theorem lowercaseFrom_append_cons (hcased : isCased c = false) (hcounts : isCaseIgnorable c = false)
    (before : Bool) (s t : List Char) : lowercaseFrom before (s ++ c :: t) =
      lowercaseFrom before s ++ (lowerChar c ++ lowercase t) := by
  have hsigma : c ≠ 'Σ' := by
    rintro rfl
    revert hcased
    decide
  induction s generalizing before with
  | nil =>
    simp [lowercaseFrom, hsigma, endsCased, hcounts, hcased, lowercase]
  | cons d s ih =>
    rw [List.cons_append, lowercaseFrom, startsCased_append_cons hcased hcounts, ih, lowercaseFrom,
      List.append_assoc]

theorem lowercase_append_cons (hcased : isCased c = false) (hcounts : isCaseIgnorable c = false)
    (s t : List Char) : lowercase (s ++ c :: t) = lowercase s ++ (lowerChar c ++ lowercase t) :=
  lowercaseFrom_append_cons hcased hcounts false s t

end Break

/-! ## Texts with spaces between them -/

/-- Texts with spaces between them, of which there is a first one. -/
def spaced (first : List Char) (rest : List (List Char)) : List Char :=
  first ++ rest.flatMap fun text => ' ' :: text

theorem spaced_cons (first second : List Char) (rest : List (List Char)) :
    spaced first (second :: rest) = first ++ ' ' :: spaced second rest := rfl

/-- Each text is put into lower case on its own. -/
theorem lowercase_spaced (first : List Char) (rest : List (List Char)) :
    lowercase (spaced first rest) = spaced (lowercase first) (rest.map lowercase) := by
  induction rest generalizing first with
  | nil => rw [spaced, spaced, List.flatMap_nil, List.map_nil, List.flatMap_nil, List.append_nil,
      List.append_nil]
  | cons second rest ih =>
    have hspace : isCased ' ' = false ∧ isCaseIgnorable ' ' = false ∧ lowerChar ' ' = [' '] := by
      decide +kernel
    rw [spaced_cons, lowercase_append_cons hspace.1 hspace.2.1, ih, List.map_cons, spaced_cons,
      hspace.2.2]
    rfl

/-- An occurrence of a word without a space lies in one of the texts. -/
theorem exists_of_spaced_eq {word : List Char} (hne : word ≠ []) (hword : ' ' ∉ word)
    {first before after : List Char} {rest : List (List Char)}
    (h : spaced first rest = before ++ (word ++ after)) : ∃ earlier text later left right,
      first :: rest = earlier ++ text :: later ∧ text = left ++ (word ++ right) ∧
        after = right ++ later.flatMap fun text => ' ' :: text := by
  induction rest generalizing first before with
  | nil =>
    rw [spaced, List.flatMap_nil, List.append_nil] at h
    exact ⟨[], first, [], before, after, rfl, h, (List.append_nil after).symm⟩
  | cons second rest ih =>
    rw [spaced_cons, List.append_eq_append_iff] at h
    obtain ⟨skipped, rfl, hrest⟩ | ⟨more, rfl, hmore⟩ := h
    · -- the occurrence starts behind the first text
      cases skipped with
      | nil =>
        obtain ⟨c, word, rfl⟩ := List.exists_cons_of_ne_nil hne
        obtain ⟨rfl, -⟩ := List.cons.inj hrest
        exact absurd List.mem_cons_self hword
      | cons c skipped =>
        obtain ⟨earlier, text, later, left, right, hsplit, htext, hafter⟩ :=
          ih (List.cons.inj hrest).2
        exact ⟨first :: earlier, text, later, left, right, congrArg _ hsplit, htext, hafter⟩
    · -- it starts in the first text and ends there, since the next character is a space
      obtain ⟨right, rfl, hafter⟩ | ⟨tail, rfl, htail⟩ := List.append_eq_append_iff.1 hmore
      · exact ⟨[], _, second :: rest, before, right, rfl, rfl, hafter⟩
      · cases tail with
        | nil =>
          refine ⟨[], _, second :: rest, before, [], rfl, ?_, htail.symm⟩
          rw [List.append_nil, List.append_nil]
        | cons c tail =>
          obtain ⟨rfl, -⟩ := List.cons.inj htail
          exact absurd (List.mem_append_right more List.mem_cons_self) hword

theorem infix_spaced_of_mem {word text first : List Char} {rest : List (List Char)}
    (hmem : text ∈ first :: rest) (h : word <:+: text) : word <:+: spaced first rest := by
  rcases List.mem_cons.1 hmem with rfl | hmem
  · exact h.trans (List.infix_append' [] text _)
  · obtain ⟨earlier, later, rfl⟩ := List.append_of_mem hmem
    refine (h.trans (List.suffix_cons ' ' text).isInfix).trans ?_
    refine ⟨first ++ earlier.flatMap fun text => ' ' :: text,
      later.flatMap fun text => ' ' :: text, ?_⟩
    rw [spaced, List.flatMap_append, List.flatMap_cons]
    simp only [List.append_assoc]

end Acceptance.Text
