import Mathlib.Algebra.BigOperators.Group.List.Basic
import Mathlib.Algebra.Ring.Int.Defs
import Acceptance.Proofs.Text.Plain
import Acceptance.Proofs.Text.Reader
import Acceptance.Proofs.Text.Search
import Acceptance.Source.Routine

/-!
# Keywords of a line

The words of a text are its maximal runs of word characters. A word that does not stand behind a dot
changes the level if it is one of three keywords, in any case. The search for keywords finds these
words and no others, from left to right, so the change of level by a line is the sum over its words.

Main results:

* `levelChange?_append`: the search at the start of a word.
* `map_allMatches_levelChange?`: the search finds the words that change the level.
* `blockDelta_eq_sum`: the change of level by a line.
-/

namespace Acceptance.Source

open Text

/-! ## Specification -/

/-- The words of a text, each with the character before it; `held` has the characters of an open
word in reverse, and `before` the character before it. -/
def wordsFrom (before : Option Char) (held : List Char) :
    List Char → List (Option Char × List Char)
  | [] => if held = [] then [] else [(before, held.reverse)]
  | c :: s =>
    if isWordChar c then wordsFrom before (c :: held) s
    else if held = [] then wordsFrom (some c) [] s
    else (before, held.reverse) :: wordsFrom (some c) [] s

/-- The change of level by a word, which stands behind the given character. -/
def wordChange? (before : Option Char) (word : List Char) : Option ℤ :=
  if before = some '.' then none
  else if word.map foldLetter ∈ ["begin".toList, "case".toList] then some 1
  else if word.map foldLetter = "end".toList then some (-1)
  else none

/-- The changes of level by the words of a text. -/
def levelChanges (s : List Char) : List ℤ :=
  (wordsFrom none [] s).filterMap fun p => wordChange? p.1 p.2

/-! ## Words -/

/-- Word characters add to the open word. -/
theorem wordsFrom_append (before : Option Char) (held : List Char) {word : List Char}
    (hw : ∀ c ∈ word, isWordChar c = true) (rest : List Char) :
    wordsFrom before held (word ++ rest) = wordsFrom before (word.reverse ++ held) rest := by
  induction word generalizing held with
  | nil => rfl
  | cons c word ih =>
    rw [List.cons_append, wordsFrom, if_pos (hw c List.mem_cons_self),
      ih _ fun d hd => hw d (List.mem_cons_of_mem _ hd), List.reverse_cons, List.append_assoc]
    rfl

/-- A word ends where another character comes. -/
theorem wordsFrom_of_edge (before other : Option Char) {held rest : List Char} (hh : held ≠ [])
    (hr : ∀ c ∈ rest.head?, isWordChar c = false) :
    wordsFrom before held rest = (before, held.reverse) :: wordsFrom other [] rest := by
  cases rest with
  | nil => rw [wordsFrom, if_neg hh, wordsFrom, if_pos rfl]
  | cons c rest =>
    have hc : ¬ isWordChar c = true := by simp [hr c rfl]
    rw [wordsFrom, if_neg hc, if_neg hh, wordsFrom, if_neg hc, if_pos rfl]

/-- A text that starts with a word character starts with a whole word. -/
theorem exists_word {c : Char} (hc : isWordChar c = true) (s : List Char) :
    ∃ word rest, c :: s = word ++ rest ∧ word ≠ [] ∧ (∀ d ∈ word, isWordChar d = true) ∧
      ∀ d ∈ rest.head?, isWordChar d = false := by
  refine ⟨(c :: s).takeWhile isWordChar, (c :: s).dropWhile isWordChar,
    List.takeWhile_append_dropWhile.symm, ?_, fun d hd => ?_, fun d hd => head?_dropWhile hd⟩
  · rw [List.takeWhile_cons_of_pos hc]
    exact List.cons_ne_nil _ _
  · exact List.all_eq_true.1 List.all_takeWhile d hd

/-- A whole word is the first word of its text. -/
theorem wordsFrom_word (before other : Option Char) {word rest : List Char} (hne : word ≠ [])
    (hw : ∀ c ∈ word, isWordChar c = true) (hr : ∀ c ∈ rest.head?, isWordChar c = false) :
    wordsFrom before [] (word ++ rest) = (before, word) :: wordsFrom other [] rest := by
  rw [wordsFrom_append before [] hw, List.append_nil,
    wordsFrom_of_edge before other (by simpa using hne) hr, List.reverse_reverse]

/-! ## Searching at a word -/

/-- The keywords that change the level. -/
def levelKeywords : List (List Char) := ["begin".toList, "case".toList, "end".toList]

/-- Letters that stand for a keyword are word characters. -/
theorem isWordChar_of_mem_levelKeywords {start : List Char}
    (h : start.map foldLetter ∈ levelKeywords) {c : Char} (hc : c ∈ start) :
    isWordChar c = true := by
  have letters : ∀ word ∈ levelKeywords, word.all Char.isAlpha = true := by decide
  exact isWordChar_of_isFoldedLetter
    (List.all_eq_true.1 (letters _ h) _ (List.mem_map_of_mem hc))

/-- A keyword is not found where a word starts with another letter. -/
theorem keyword?_eq_none {k l word rest : List Char} (h : word.map foldLetter = l)
    (hl : l.head?.isSome ∧ k.head?.isSome ∧ l.head? ≠ k.head?) :
    keyword? k (word ++ rest) = none := by
  obtain ⟨h1, h2, h3⟩ := hl
  cases k with
  | nil => cases h2
  | cons d k =>
    cases word with
    | nil =>
      subst h
      cases h1
    | cons c word =>
      have hc : ¬ (foldLetter c == d) = true := by
        intro he
        subst h
        exact h3 (congrArg some (beq_iff_eq.1 he))
      rw [List.cons_append, keyword?, if_neg hc]

section Word

variable {word rest : List Char} (hw : ∀ c ∈ word, isWordChar c = true)
  (hr : ∀ c ∈ rest.head?, isWordChar c = false)

include hw hr

/-- A keyword that is only the start of a word has no edge behind it. -/
theorem isEdge_of_keyword? {k r : List Char} (hk : k ∈ levelKeywords)
    (h : keyword? k (word ++ rest) = some r) (hne : word.map foldLetter ≠ k) :
    isEdge r.head? = false := by
  obtain ⟨start, rfl, he⟩ := keyword?_eq_some_iff.1 h
  rcases List.append_eq_append_iff.1 he with ⟨more, rfl, rfl⟩ | ⟨more, rfl, rfl⟩
  · cases more with
    | nil => exact absurd (by rw [List.append_nil]) hne
    | cons c more =>
      -- the keyword would go on with a character that is not of the word
      have hc : isWordChar c = true :=
        isWordChar_of_mem_levelKeywords hk (List.mem_append_right _ List.mem_cons_self)
      exact absurd (hc.symm.trans (hr c rfl)) (by decide)
  · cases more with
    | nil => exact absurd (by rw [List.append_nil]) hne
    | cons c more =>
      have hc := hw c (List.mem_append_right _ List.mem_cons_self)
      simp [isEdge, hc]

/-- At the start of a word the search finds the change of level by the word. -/
theorem levelChange?_append {before : Option Char} (hb : ∀ c ∈ before, isWordChar c = false) :
    levelChange? before (word ++ rest) =
      (wordChange? before word).map fun change => (change, rest) := by
  by_cases hdot : before = some '.'
  · subst hdot
    rw [wordChange?, if_pos rfl]
    rfl
  have hfree : ¬ (before.any fun c => c == '.' || isWordChar c) = true := by
    cases before with
    | none => exact Bool.false_ne_true
    | some c =>
      have hc : c ≠ '.' := fun h => hdot (congrArg some h)
      simp [hc, hb c rfl]
  have hedge : isEdge rest.head? = true := by
    cases hh : rest.head? with
    | none => rfl
    | some c => simp [isEdge, hr c hh]
  have whole {k : List Char} (h : word.map foldLetter = k) :
      keyword? k (word ++ rest) = some rest := keyword?_eq_some_iff.2 ⟨word, h, rfl⟩
  rw [levelChange?, if_neg hfree, wordChange?, if_neg hdot]
  by_cases hbegin : word.map foldLetter = "begin".toList
  · rw [anyKeyword?, whole hbegin, hbegin]
    simp only [hedge, if_true]
    rfl
  by_cases hcase : word.map foldLetter = "case".toList
  · rw [anyKeyword?, keyword?_eq_none hcase (by decide), anyKeyword?, whole hcase, hcase]
    simp only [hedge, if_true]
    rfl
  by_cases hend : word.map foldLetter = "end".toList
  · rw [anyKeyword?, keyword?_eq_none hend (by decide), anyKeyword?,
      keyword?_eq_none hend (by decide), anyKeyword?, whole hend, hend]
    simp only [hedge, if_true]
    rfl
  have hopen : word.map foldLetter ∉ ["begin".toList, "case".toList] := by
    rw [List.mem_cons, List.mem_singleton]
    exact not_or.2 ⟨hbegin, hcase⟩
  rw [if_neg hopen, if_neg hend]
  cases hany : anyKeyword? ["begin".toList, "case".toList, "end".toList] (word ++ rest) with
  | none => rfl
  | some p =>
    obtain ⟨hm, hk⟩ := anyKeyword?_mem hany
    have hne : word.map foldLetter ≠ p.1 := by
      simp only [List.mem_cons, List.not_mem_nil, or_false] at hm
      rcases hm with hm | hm | hm
      · rwa [hm]
      · rwa [hm]
      · rwa [hm]
    simp only [isEdge_of_keyword? hw hr hm hk hne]
    rfl

end Word

/-! ## The search for keywords -/

/-- Nothing is found at a character that belongs to no word. -/
theorem levelChange?_eq_none {before : Option Char} {c : Char} (hc : isWordChar c = false)
    (s : List Char) : levelChange? before (c :: s) = none := by
  rw [levelChange?]
  split_ifs with hb
  · rfl
  cases hany : anyKeyword? ["begin".toList, "case".toList, "end".toList] (c :: s) with
  | none => rfl
  | some p =>
    obtain ⟨hm, hk⟩ := anyKeyword?_mem hany
    obtain ⟨start, hs, he⟩ := keyword?_eq_some_iff.1 hk
    have hne : ∀ word ∈ levelKeywords, word ≠ [] := by decide
    cases start with
    | nil => exact absurd hs.symm (hne _ hm)
    | cons d start =>
      obtain rfl := (List.cons.inj he).1
      have hw : isWordChar c = true :=
        isWordChar_of_mem_levelKeywords (hs ▸ hm) List.mem_cons_self
      exact absurd (hw.symm.trans hc) (by decide)

/-- Nothing is found inside a word. -/
theorem matchesFrom_inside (offset : ℕ) {b : Char} (hb : isWordChar b = true) {word : List Char}
    (hw : ∀ c ∈ word, isWordChar c = true) (rest : List Char) :
    ∃ later last, matchesFrom levelChange? offset 0 (some b) (word ++ rest) =
      matchesFrom levelChange? later 0 last rest := by
  induction word generalizing offset b with
  | nil => exact ⟨offset, some b, rfl⟩
  | cons c word ih =>
    have hnone : levelChange? (some b) (c :: (word ++ rest)) = none := by
      rw [levelChange?, if_pos (by simp [hb])]
    rw [List.cons_append, matchesFrom, hnone]
    exact ih _ (hw c List.mem_cons_self) fun d hd => hw d (List.mem_cons_of_mem _ hd)

/-- The search goes on behind a word, with the change of level by the word if it makes one. -/
theorem matchesFrom_word (offset : ℕ) {before : Option Char}
    (hb : ∀ c ∈ before, isWordChar c = false) {word rest : List Char} (hne : word ≠ [])
    (hw : ∀ c ∈ word, isWordChar c = true) (hr : ∀ c ∈ rest.head?, isWordChar c = false) :
    ∃ later last, (matchesFrom levelChange? offset 0 before (word ++ rest)).map Prod.snd =
      (wordChange? before word).toList ++
        (matchesFrom levelChange? later 0 last rest).map Prod.snd := by
  obtain ⟨c, word, rfl⟩ := List.exists_cons_of_ne_nil hne
  have hfind := levelChange?_append hw hr hb
  rw [List.cons_append] at hfind ⊢
  rw [matchesFrom, hfind]
  cases wordChange? before (c :: word) with
  | none =>
    obtain ⟨later, last, he⟩ := matchesFrom_inside (offset + c.utf8Size) (hw c List.mem_cons_self)
      (fun d hd => hw d (List.mem_cons_of_mem _ hd)) rest
    exact ⟨later, last, congrArg _ he⟩
  | some change =>
    refine ⟨offset + c.utf8Size + byteLength word, word.getLast?.or (some c), ?_⟩
    have hlen : (word ++ rest).length - rest.length = word.length := by
      rw [List.length_append]
      omega
    simp only [Option.map_some, hlen, matchesFrom_append]
    rfl

theorem map_matchesFrom (s : List Char) (offset : ℕ) {before : Option Char}
    (hb : ∀ c ∈ before, isWordChar c = false) :
    (matchesFrom levelChange? offset 0 before s).map Prod.snd =
      (wordsFrom before [] s).filterMap fun p => wordChange? p.1 p.2 := by
  -- the search steps over one word or one other character at a time
  induction hn : s.length using Nat.strong_induction_on generalizing s offset before with
  | _ n ih =>
  have step (c : Char) (rest : List Char) (hc : isWordChar c = false)
      (hlt : rest.length < s.length) (offset : ℕ) (last : Option Char) :
      (matchesFrom levelChange? offset 0 last (c :: rest)).map Prod.snd =
        (wordsFrom (some c) [] rest).filterMap fun p => wordChange? p.1 p.2 := by
    rw [matchesFrom, levelChange?_eq_none hc]
    refine ih _ (hn ▸ hlt) rest _ ?_ rfl
    rintro d ⟨⟩
    exact hc
  cases s with
  | nil => rfl
  | cons c s =>
    cases hc : isWordChar c with
    | false =>
      rw [step c s hc (Nat.lt_succ_self _), wordsFrom, if_neg (by simp [hc]), if_pos rfl]
    | true =>
      obtain ⟨word, rest, hs, hne, hw, hr⟩ := exists_word hc s
      obtain ⟨later, last, he⟩ := matchesFrom_word offset hb hne hw hr
      rw [hs, he, wordsFrom_word before none hne hw hr, List.filterMap_cons]
      have hrest : (matchesFrom levelChange? later 0 last rest).map Prod.snd =
          (wordsFrom none [] rest).filterMap fun p => wordChange? p.1 p.2 := by
        cases rest with
        | nil => rfl
        | cons d rest =>
          have hd := hr d rfl
          have hlt : rest.length < (c :: s).length := by
            rw [hs, List.length_append, List.length_cons]
            omega
          rw [step d rest hd hlt, wordsFrom, if_neg (by simp [hd]), if_pos rfl]
      rw [hrest]
      cases wordChange? before word <;> rfl

/-- The search for keywords finds the words that change the level. -/
theorem map_allMatches_levelChange? (s : List Char) :
    (allMatches levelChange? s).map Prod.snd = levelChanges s := by
  refine map_matchesFrom s 0 ?_
  rintro c ⟨⟩

/-- The change of level by a line is the sum over the words that it has besides its quoted names. -/
theorem blockDelta_eq_sum (masked : List Char) :
    blockDelta masked = (levelChanges (withoutNames masked)).sum := by
  rw [blockDelta, ← map_allMatches_levelChange?, List.sum_eq_foldl, List.foldl_map]

end Acceptance.Source
