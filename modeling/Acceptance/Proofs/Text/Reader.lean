import Mathlib.Data.List.Basic
import Acceptance.Text.Letter
import Acceptance.Text.Search
import Acceptance.Proofs.Text.Blank

/-!
# Readers return parts of what they read

A reader that goes from left to right leaves an end of its text, and a search finds what a reader
finds at one place.

Main results:

* `keyword?_suffix`, `run?_suffix`: what is left is an end of the text.
* `run?_eq_some_iff`, `blanks?_eq_some_iff_append`: a run is as long as possible.
* `firstMatch?_eq_some_iff`: a search finds something at the first place where there is something.
-/

namespace Acceptance.Text

theorem skipBlanks_suffix (s : List Char) : skipBlanks s <:+ s :=
  List.dropWhile_suffix isBlank

theorem keyword?_suffix {word s rest : List Char} (h : keyword? word s = some rest) :
    rest <:+ s := by
  obtain ⟨start, -, rfl⟩ := keyword?_eq_some_iff.1 h
  exact List.suffix_append start rest

theorem blanks?_suffix {s rest : List Char} (h : blanks? s = some rest) : rest <:+ s := by
  rw [(blanks?_eq_some_iff.1 h).2]
  exact skipBlanks_suffix s

theorem run?_suffix {p : Char → Bool} {s run rest : List Char} (h : run? p s = some (run, rest)) :
    rest <:+ s := by
  unfold run? at h
  split at h
  · cases h
  · cases h
    exact List.dropWhile_suffix p

theorem mem_run? {p : Char → Bool} {s run rest : List Char} (h : run? p s = some (run, rest)) :
    ∀ c ∈ run, p c = true := by
  unfold run? at h
  split at h
  · cases h
  · next d u hu =>
    cases h
    rw [← hu]
    exact List.all_eq_true.1 List.all_takeWhile

theorem head?_dropWhile {α : Type} {p : α → Bool} {s : List α} {c : α}
    (h : c ∈ (s.dropWhile p).head?) : p c = false := by
  have := List.head?_dropWhile_not p s
  rwa [Option.mem_def.1 h] at this

/-- A name and the text that it is read up to. -/
theorem run?_append {p : Char → Bool} {s : List Char} (hne : s ≠ []) (h : ∀ c ∈ s, p c = true)
    {rest : List Char} (hr : ∀ c ∈ rest.head?, p c = false) : run? p (s ++ rest) = some (s, rest) := by
  have hrest : rest.takeWhile p = [] ∧ rest.dropWhile p = rest := by
    cases rest with
    | nil => exact ⟨rfl, rfl⟩
    | cons c rest =>
      have hc := hr c rfl
      exact ⟨by rw [List.takeWhile_cons, hc]; rfl, by rw [List.dropWhile_cons, hc]; rfl⟩
  have ht : (s ++ rest).takeWhile p = s := by
    rw [List.takeWhile_append_of_pos h, hrest.1, List.append_nil]
  have hd : (s ++ rest).dropWhile p = rest := by
    rw [List.dropWhile_append_of_pos h, hrest.2]
  rw [run?, ht, hd]
  cases s with
  | nil => exact absurd rfl hne
  | cons c s => rfl

/-- A run is as long as possible and not empty. -/
theorem run?_eq_some_iff {p : Char → Bool} {s run rest : List Char} :
    run? p s = some (run, rest) ↔ s = run ++ rest ∧ run ≠ [] ∧ (∀ c ∈ run, p c = true) ∧
      ∀ c ∈ rest.head?, p c = false := by
  constructor
  · intro h
    have hmem := mem_run? h
    unfold run? at h
    split at h
    · cases h
    · next hu =>
      cases h
      refine ⟨?_, List.cons_ne_nil _ _, hmem, fun c hc => head?_dropWhile hc⟩
      rw [← hu, List.takeWhile_append_dropWhile]
  · rintro ⟨rfl, hne, hrun, hrest⟩
    exact run?_append hne hrun hrest

/-- The blanks that are skipped are all there are, and at least one. -/
theorem blanks?_eq_some_iff_append {s rest : List Char} :
    blanks? s = some rest ↔ ∃ blanks, s = blanks ++ rest ∧ blanks ≠ [] ∧
      (∀ c ∈ blanks, isBlank c = true) ∧ ∀ c ∈ rest.head?, isBlank c = false := by
  constructor
  · intro h
    obtain ⟨⟨c, hhead, hc⟩, rfl⟩ := blanks?_eq_some_iff.1 h
    obtain ⟨more, rfl⟩ := List.head?_eq_some_iff.1 hhead
    refine ⟨(c :: more).takeWhile isBlank, List.takeWhile_append_dropWhile.symm, ?_,
      List.all_eq_true.1 List.all_takeWhile, fun d hd => head?_dropWhile hd⟩
    rw [List.takeWhile_cons_of_pos hc]
    exact List.cons_ne_nil _ _
  · rintro ⟨blanks, rfl, hne, hblank, hrest⟩
    obtain ⟨b, more, rfl⟩ := List.exists_cons_of_ne_nil hne
    refine blanks?_eq_some_iff.2 ⟨⟨b, rfl, hblank b List.mem_cons_self⟩, ?_⟩
    exact (skipBlanks_append_of_allBlank (List.all_eq_true.2 hblank) hrest).symm

theorem blanks?_space {c : Char} (hc : isBlank c = false) (s : List Char) :
    blanks? (' ' :: c :: s) = some (c :: s) := by
  rw [blanks?, if_pos (by decide), skipBlanks_cons hc]

/-- What is found at the start of a text is found first. -/
theorem firstMatch?_of_some {α : Type} {find? : List Char → Option α} {s : List Char} {a : α}
    (h : find? s = some a) : firstMatch? find? s = some a := by
  cases s with
  | nil => exact h
  | cons c s => rw [firstMatch?, h]

theorem firstMatch?_eq_some {α : Type} {find? : List Char → Option α} {s : List Char} {a : α}
    (h : firstMatch? find? s = some a) : ∃ t, t <:+ s ∧ find? t = some a := by
  induction s with
  | nil => exact ⟨[], List.suffix_refl _, h⟩
  | cons c s ih =>
    rw [firstMatch?] at h
    cases hf : find? (c :: s) with
    | some b =>
      rw [hf] at h
      exact ⟨c :: s, List.suffix_refl _, hf.trans h⟩
    | none =>
      rw [hf] at h
      obtain ⟨t, ht, ha⟩ := ih h
      exact ⟨t, ht.trans (List.suffix_cons c s), ha⟩

/-- What is found first is found at a place that has no find in front. -/
theorem firstMatch?_eq_some_iff {α : Type} {find? : List Char → Option α} {s : List Char} {a : α} :
    firstMatch? find? s = some a ↔ ∃ t, t <:+ s ∧ find? t = some a ∧
      ∀ u, u <:+ s → t.length < u.length → find? u = none := by
  induction s with
  | nil =>
    simp only [firstMatch?, List.suffix_nil]
    constructor
    · exact fun h => ⟨[], rfl, h, fun u hu hlt => absurd hlt (by simp [hu])⟩
    · rintro ⟨_, rfl, h, -⟩
      exact h
  | cons c s ih =>
    rw [firstMatch?]
    cases hf : find? (c :: s) with
    | some b =>
      constructor
      · rintro ⟨⟩
        refine ⟨c :: s, List.suffix_refl _, hf, fun u hu hlt => absurd hu.length_le ?_⟩
        exact Nat.not_le.2 hlt
      · rintro ⟨t, ht, ha, hearlier⟩
        rcases List.suffix_cons_iff.1 ht with rfl | ht
        · exact hf.symm.trans ha
        · have := hearlier (c :: s) (List.suffix_refl _) (Nat.lt_succ_of_le ht.length_le)
          rw [hf] at this
          cases this
    | none =>
      show firstMatch? find? s = some a ↔ _
      rw [ih]
      constructor
      · rintro ⟨t, ht, ha, hearlier⟩
        refine ⟨t, ht.trans (List.suffix_cons c s), ha, fun u hu hlt => ?_⟩
        rcases List.suffix_cons_iff.1 hu with rfl | hu
        · exact hf
        · exact hearlier u hu hlt
      · rintro ⟨t, ht, ha, hearlier⟩
        rcases List.suffix_cons_iff.1 ht with rfl | ht
        · rw [hf] at ha
          cases ha
        · exact ⟨t, ht, ha, fun u hu => hearlier u (hu.trans (List.suffix_cons c s))⟩

theorem char?_eq_some_iff {k : Char} {s rest : List Char} :
    char? k s = some rest ↔ s = k :: rest := by
  cases s with
  | nil => simp [char?]
  | cons c s =>
    rw [char?]
    split_ifs with h
    · simp [beq_iff_eq.1 h]
    · simp only [beq_iff_eq] at h
      simp [h]

theorem char?_suffix {k : Char} {s rest : List Char} (h : char? k s = some rest) : rest <:+ s := by
  rw [char?_eq_some_iff.1 h]
  exact List.suffix_cons k rest

theorem isSome_after? (start s : List Char) : (after? start s).isSome = start.isPrefixOf s := by
  rw [after?]
  cases start.isPrefixOf s <;> rfl

theorem after?_eq_some_iff {start s rest : List Char} :
    after? start s = some rest ↔ s = start ++ rest := by
  rw [after?, Option.ite_none_right_eq_some, List.isPrefixOf_iff_prefix]
  constructor
  · rintro ⟨⟨more, rfl⟩, h⟩
    rw [List.drop_left, Option.some.injEq] at h
    rw [h]
  · rintro rfl
    exact ⟨List.prefix_append start rest, congrArg some List.drop_left⟩

theorem after?_cons (k : Char) (start : List Char) (c : Char) (s : List Char) :
    after? (k :: start) (c :: s) = if c = k then after? start s else none := by
  unfold after?
  by_cases hc : c = k
  · subst hc
    simp
  · have hk : k ≠ c := fun he => hc he.symm
    simp [hc, hk]

theorem anyKeyword?_mem {words : List (List Char)} {s word rest : List Char}
    (h : anyKeyword? words s = some (word, rest)) : word ∈ words ∧ keyword? word s = some rest := by
  induction words with
  | nil => cases h
  | cons w words ih =>
    rw [anyKeyword?] at h
    cases hw : keyword? w s with
    | none =>
      rw [hw] at h
      obtain ⟨hm, hk⟩ := ih h
      exact ⟨List.mem_cons_of_mem _ hm, hk⟩
    | some r =>
      rw [hw] at h
      cases h
      exact ⟨List.mem_cons_self, hw⟩

end Acceptance.Text
