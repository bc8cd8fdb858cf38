import Mathlib.Data.List.Basic
import Mathlib.Data.List.Infix
import Acceptance.Text.Bytes
import Acceptance.Text.Search

/-!
# Searches

What a search finds is decided place by place. Where nothing is found at any place of a text, the
search of the text finds nothing; behind a find it goes on with the text that the find leaves. Often
one look at a character and the one before it tells that nothing is found at a place.

Main results:

* `allMatches_eq_nil`: a search without finds.
* `allMatches_eq_nil_of_anyPair`: a search that two characters in a row rule out.
* `matchesFrom_append`: the characters of a find are passed over.
* `exists_of_mem_allMatches`: where a search finds something, its recogniser does.
* `map_fst_matchesFrom`: a search whose finds cannot overlap finds everything.
-/

namespace Acceptance.Text

/-! ## Two characters in a row -/

/-- The last character of a text, or the one before the text where that is empty. -/
theorem getLast?_cons_or (c : Char) (s : List Char) (before : Option Char) :
    (c :: s).getLast?.or before = s.getLast?.or (some c) := by
  rw [List.getLast?_cons]
  cases s.getLast? <;> rfl

/-- Whether a character of a text has a property together with the one before it. -/
def anyPair (p : Option Char → Char → Bool) (before : Option Char) : List Char → Bool
  | [] => false
  | c :: s => p before c || anyPair p (some c) s

variable {p : Option Char → Char → Bool}

theorem anyPair_append (before : Option Char) (s t : List Char) :
    anyPair p before (s ++ t) =
      (anyPair p before s || anyPair p (s.getLast?.or before) t) := by
  induction s generalizing before with
  | nil => rfl
  | cons c s ih =>
    rw [List.cons_append, anyPair, ih, anyPair, Bool.or_assoc, getLast?_cons_or]

theorem anyPair_of_suffix {before : Option Char} {s t : List Char} (h : t <:+ s)
    (hs : anyPair p before s = false) : ∃ last, anyPair p last t = false := by
  obtain ⟨u, rfl⟩ := h
  rw [anyPair_append, Bool.or_eq_false_iff] at hs
  exact ⟨_, hs.2⟩

/-- If no two of the characters have the property, nor the first one with the one before it. -/
theorem anyPair_eq_false {before : Option Char} {s : List Char}
    (hb : ∀ c ∈ s.head?, p before c = false)
    (h : ∀ d ∈ s, ∀ c ∈ s, p (some d) c = false) : anyPair p before s = false := by
  induction s generalizing before with
  | nil => rfl
  | cons c s ih =>
    rw [anyPair, Bool.or_eq_false_iff]
    refine ⟨hb c rfl, ih (fun d hd => ?_) fun d hd e he =>
      h d (List.mem_cons_of_mem _ hd) e (List.mem_cons_of_mem _ he)⟩
    exact h c List.mem_cons_self d (List.mem_cons_of_mem _ (List.mem_of_mem_head? hd))

/-- If no character of the text ever has the property. -/
theorem anyPair_of_never {s : List Char} (h : ∀ c ∈ s, ∀ b, p b c = false)
    (before : Option Char) : anyPair p before s = false :=
  anyPair_eq_false (fun c hc => h c (List.mem_of_mem_head? hc) before)
    fun d _ c hc => h c hc (some d)

/-! ## Finds -/

variable {α : Type} {find? : Option Char → List Char → Option (α × List Char)}

theorem matchesFrom_eq_nil {s : List Char} (h : ∀ b t, t <:+ s → t ≠ [] → find? b t = none)
    (offset : ℕ) (before : Option Char) : matchesFrom find? offset 0 before s = [] := by
  induction s generalizing offset before with
  | nil => rfl
  | cons c s ih =>
    rw [matchesFrom, h before (c :: s) (List.suffix_refl _) (List.cons_ne_nil c s)]
    exact ih (fun b t ht => h b t (ht.trans (List.suffix_cons c s))) _ _

theorem allMatches_eq_nil {s : List Char} (h : ∀ b t, t <:+ s → t ≠ [] → find? b t = none) :
    allMatches find? s = [] :=
  matchesFrom_eq_nil h 0 none

theorem allMatches_eq_nil_of_anyPair (hf : ∀ b c s, p b c = false → find? b (c :: s) = none)
    {s : List Char} (h : anyPair p none s = false) : allMatches find? s = [] := by
  -- the search is the same at every place, with what stands before it
  have key : ∀ (s : List Char) (offset : ℕ) (before : Option Char), anyPair p before s = false →
      matchesFrom find? offset 0 before s = [] := by
    intro s
    induction s with
    | nil => intro offset before _; rfl
    | cons c s ih =>
      intro offset before h
      rw [anyPair, Bool.or_eq_false_iff] at h
      rw [matchesFrom, hf before c s h.1]
      exact ih _ _ h.2
  exact key s 0 none h

/-- The characters of a find are passed over; the search goes on behind them. -/
theorem matchesFrom_append (offset : ℕ) (before : Option Char) (u v : List Char) :
    matchesFrom find? offset u.length before (u ++ v) =
      matchesFrom find? (offset + byteLength u) 0 (u.getLast?.or before) v := by
  induction u generalizing offset before with
  | nil => rfl
  | cons c u ih =>
    rw [List.length_cons, List.cons_append, matchesFrom, ih, getLast?_cons_or, byteLength_cons,
      Nat.add_assoc]

/-! ## Places -/

/-- A find starts at its offset. -/
theorem exists_of_mem_matchesFrom {p : ℕ × α} {offset skip : ℕ} {before : Option Char}
    {s : List Char} (h : p ∈ matchesFrom find? offset skip before s) :
    ∃ start rest, s = start ++ rest ∧ rest ≠ [] ∧ p.1 = offset + byteLength start ∧
      ∃ behind, find? (start.getLast?.or before) rest = some (p.2, behind) := by
  induction s generalizing offset skip before with
  | nil => cases h
  | cons c s ih =>
    have later {skip : ℕ} (h : p ∈ matchesFrom find? (offset + c.utf8Size) skip (some c) s) :
        ∃ start rest, c :: s = start ++ rest ∧ rest ≠ [] ∧ p.1 = offset + byteLength start ∧
          ∃ behind, find? (start.getLast?.or before) rest = some (p.2, behind) := by
      obtain ⟨start, rest, rfl, hne, hoffset, hfind⟩ := ih h
      refine ⟨c :: start, rest, rfl, hne, ?_, ?_⟩
      · rw [hoffset, byteLength_cons, Nat.add_assoc]
      · rwa [getLast?_cons_or]
    cases skip with
    | succ skip => exact later h
    | zero =>
      rw [matchesFrom] at h
      cases hc : find? before (c :: s) with
      | none =>
        rw [hc] at h
        exact later h
      | some found =>
        rw [hc] at h
        rcases List.mem_cons.1 h with rfl | h
        · exact ⟨[], c :: s, rfl, List.cons_ne_nil c s, rfl, found.2, hc⟩
        · exact later h

theorem exists_of_mem_allMatches {p : ℕ × α} {s : List Char} (h : p ∈ allMatches find? s) :
    ∃ start rest, s = start ++ rest ∧ rest ≠ [] ∧ p.1 = byteLength start ∧
      ∃ behind, find? start.getLast? rest = some (p.2, behind) := by
  obtain ⟨start, rest, hs, hne, hoffset, hfind⟩ := exists_of_mem_matchesFrom h
  refine ⟨start, rest, hs, hne, hoffset.trans (Nat.zero_add _), ?_⟩
  rwa [Option.or_none] at hfind

/-- Whether a find stands at its offset in a text: there its recogniser finds it, behind the
character before that place. -/
def IsFind (find? : Option Char → List Char → Option (α × List Char)) (text : List Char)
    (p : ℕ × α) : Prop :=
  ∃ start rest behind, text = start ++ rest ∧ p.1 = byteLength start ∧
    find? start.getLast? rest = some (p.2, behind)

theorem isFind_of_mem_allMatches {p : ℕ × α} {s : List Char} (h : p ∈ allMatches find? s) :
    IsFind find? s p := by
  obtain ⟨start, rest, hs, -, hoffset, behind, hfind⟩ := exists_of_mem_allMatches h
  exact ⟨start, rest, behind, hs, hoffset, hfind⟩

theorem lt_byteLength_of_mem_allMatches {p : ℕ × α} {s : List Char} (h : p ∈ allMatches find? s) :
    p.1 < byteLength s := by
  obtain ⟨start, rest, rfl, hne, hoffset, -⟩ := exists_of_mem_allMatches h
  obtain ⟨c, more, rfl⟩ := List.exists_cons_of_ne_nil hne
  have hsize := Char.utf8Size_pos c
  rw [hoffset, byteLength_append, byteLength_cons]
  omega

/-- The places of a text, as numbers of characters before them, where a recogniser finds something. -/
def starts (find? : Option Char → List Char → Option (α × List Char)) (before : Option Char)
    (s : List Char) : List ℕ :=
  (List.range s.length).filter fun i => (find? ((s.take i).getLast?.or before) (s.drop i)).isSome

theorem starts_cons (before : Option Char) (c : Char) (s : List Char) :
    starts find? before (c :: s) =
      (if (find? before (c :: s)).isSome then [0] else []) ++
        (starts find? (some c) s).map (· + 1) := by
  have hlater : (fun i => (find? (((c :: s).take (i + 1)).getLast?.or before)
      ((c :: s).drop (i + 1))).isSome) =
      fun i => (find? ((s.take i).getLast?.or (some c)) (s.drop i)).isSome := by
    funext i
    rw [List.take_succ_cons, List.drop_succ_cons, getLast?_cons_or]
  rw [starts, List.length_cons, List.range_succ_eq_map, List.filter_cons, List.filter_map]
  show (if (find? before (c :: s)).isSome then _ else _) = _
  simp only [Function.comp_def, Nat.succ_eq_add_one]
  rw [hlater, starts]
  split_ifs <;> rfl

/-- Where nothing is found inside of a find, a search finds something at every place where there is
something to find. -/
theorem map_fst_matchesFrom
    (hf : ∀ b c s a rest, find? b (c :: s) = some (a, rest) →
      ∃ u, s = u ++ rest ∧ ∀ d ∈ u, ∀ b' t, find? b' (d :: t) = none)
    {skip : ℕ} {s : List Char} (hskip : ∀ d ∈ s.take skip, ∀ b t, find? b (d :: t) = none)
    (offset : ℕ) (before : Option Char) :
    (matchesFrom find? offset skip before s).map Prod.fst =
      (starts find? before s).map fun i => offset + byteLength (s.take i) := by
  induction s generalizing offset skip before with
  | nil => rfl
  | cons c s ih =>
    have hshift : ((starts find? (some c) s).map (· + 1)).map
          (fun i => offset + byteLength ((c :: s).take i)) =
        (starts find? (some c) s).map fun i => offset + c.utf8Size + byteLength (s.take i) := by
      rw [List.map_map]
      refine List.map_congr_left fun i _ => ?_
      show offset + byteLength ((c :: s).take (i + 1)) = _
      rw [List.take_succ_cons, byteLength_cons, Nat.add_assoc]
    rw [starts_cons, List.map_append, hshift]
    cases skip with
    | succ skip =>
      rw [List.take_succ_cons] at hskip
      have hnone : find? before (c :: s) = none := hskip c List.mem_cons_self before s
      rw [matchesFrom, hnone]
      exact ih (fun d hd => hskip d (List.mem_cons_of_mem c hd)) _ _
    | zero =>
      rw [matchesFrom]
      cases hc : find? before (c :: s) with
      | none => exact ih (by rintro d ⟨⟩) _ _
      | some found =>
        obtain ⟨a, rest⟩ := found
        obtain ⟨u, rfl, hu⟩ := hf before c s a rest hc
        have hlen : (u ++ rest).length - rest.length = u.length := by
          rw [List.length_append, Nat.add_sub_cancel]
        have htake : (u ++ rest).take u.length = u := List.take_left
        simp only [hlen]
        rw [List.map_cons, ih (by rw [htake]; exact hu)]
        rfl

theorem matchesFrom_skip (offset : ℕ) (before : Option Char) (u v : List Char) :
    ∃ (later : ℕ) (last : Option Char),
      matchesFrom find? offset u.length before (u ++ v) = matchesFrom find? later 0 last v :=
  ⟨_, _, matchesFrom_append offset before u v⟩

end Acceptance.Text
