import Mathlib.Data.List.Basic
import Acceptance.Proofs.Source.Lines
import Acceptance.Proofs.Text.Return
import Acceptance.Proofs.Text.Search

/-!
# Finds with their lines

A search of a masked source reports the lines of its finds. Where a blank is added before each line
feed all byte offsets change, but the finds are the same and stand on the same lines, if the search
looks for words that no line end cuts in two.

Main results:

* `lineAt_mask`: a place has the same line in both views.
* `found_widened`: the finds in a widened text.
-/

namespace Acceptance.Source

open Text

/-! ## Lines of places -/

/-- The line of a place is counted in the bytes before it. -/
theorem lineAt_eq_count (offset : ℕ) (s : List Char) :
    lineAt offset s = 1 + ((lineFeedFlags (utf8 s)).take offset).count true := by
  induction s generalizing offset with
  | nil => rw [lineAt, utf8_nil, lineFeedFlags, List.map_nil, List.take_nil, List.count_nil]
  | cons c s ih =>
    by_cases h0 : offset = 0
    · subst h0
      rw [lineAt_zero, List.take_zero, List.count_nil]
    have hflags : lineFeedFlags (utf8 (c :: s)) =
        lineFeedFlags (String.utf8EncodeChar c) ++ lineFeedFlags (utf8 s) := by
      rw [utf8_cons, lineFeedFlags, List.map_append, lineFeedFlags, lineFeedFlags]
    have hlen : (lineFeedFlags (String.utf8EncodeChar c)).length = c.utf8Size := by
      rw [lineFeedFlags, List.length_map, String.length_utf8EncodeChar]
    rw [lineAt, if_neg h0, hflags, List.take_append, List.count_append, hlen]
    by_cases hc : c = '\n'
    · subst hc
      have hone : (lineFeedFlags (String.utf8EncodeChar '\n')).take offset = [true] := by
        have he : lineFeedFlags (String.utf8EncodeChar '\n') = [true] := by decide
        rw [he, List.take_of_length_le (by rw [List.length_singleton]; omega)]
      rw [if_pos (by decide), ih, hone]
      rfl
    · -- no byte of another character is a line feed
      have hnone : ((lineFeedFlags (String.utf8EncodeChar c)).take offset).count true = 0 := by
        refine List.count_eq_zero.2 fun hm => hc ?_
        obtain ⟨b, hb, he⟩ := List.mem_map.1 (List.mem_of_mem_take hm)
        exact eq_lineFeed_of_mem (of_decide_eq_true he ▸ hb)
      rw [if_neg (by simpa using hc), ih, hnone, Nat.zero_add]

/-- A place has the same line in both views. -/
theorem lineAt_mask (offset : ℕ) (s : List Char) : lineAt offset (mask s) = lineAt offset s := by
  rw [lineAt_eq_count, lineAt_eq_count, lineFeedFlags_mask]

/-! ## Searches -/

/-- What a search finds, with the line on which each find starts. -/
def found {α : Type} (find? : Option Char → List Char → Option (α × List Char))
    (s : List Char) : List (ℕ × α) :=
  (allMatches find? s).map fun p => (lineAt p.1 s, p.2)

/-- Whether a search finds nothing that starts with a blank, and finds the same in widened texts. -/
structure IgnoresLineEnds {α : Type} (find? : Option Char → List Char → Option (α × List Char)) :
    Prop where
  blank : ∀ before c s, isBlank c = true → find? before (c :: s) = none
  widened : ∀ before c s t, c ≠ '\n' → Widened s t →
    Option.Rel (FindsBeside s t) (find? before (c :: s)) (find? before (c :: t))

variable {α : Type} {find? : Option Char → List Char → Option (α × List Char)}

/-- The finds behind some text, with their lines. -/
def foundFrom (find? : Option Char → List Char → Option (α × List Char)) (start : List Char)
    (before : Option Char) (s : List Char) : List (ℕ × α) :=
  (matchesFrom find? (byteLength start) 0 before s).map fun p => (lineAt p.1 (start ++ s), p.2)

theorem foundFrom_none {start s : List Char} {before : Option Char} {c : Char}
    (h : find? before (c :: s) = none) :
    foundFrom find? start before (c :: s) = foundFrom find? (start ++ [c]) (some c) s := by
  have hlen : byteLength start + c.utf8Size = byteLength (start ++ [c]) := by
    rw [byteLength_append, byteLength_cons, byteLength_nil]
    omega
  rw [foundFrom, matchesFrom, h, foundFrom, List.append_assoc, List.singleton_append, hlen]

theorem foundFrom_some {start u rest : List Char} {before : Option Char} {c : Char} {a : α}
    (h : find? before (c :: (u ++ rest)) = some (a, rest)) :
    foundFrom find? start before (c :: (u ++ rest)) = (1 + lineFeeds start, a) ::
      foundFrom find? (start ++ c :: u) (u.getLast?.or (some c)) rest := by
  have hlen : (u ++ rest).length - rest.length = u.length := by
    rw [List.length_append]
    omega
  have hoffset : byteLength start + c.utf8Size + byteLength u = byteLength (start ++ c :: u) := by
    rw [byteLength_append, byteLength_cons]
    omega
  rw [foundFrom, matchesFrom, h]
  simp only [hlen]
  rw [List.map_cons, lineAt_append, matchesFrom_append, hoffset, foundFrom, List.append_assoc,
    List.cons_append]

/-- At a character that is no line feed a search finds the same or nothing in both texts. -/
theorem IgnoresLineEnds.find?_widened (hf : IgnoresLineEnds find?) (before : Option Char) {c : Char}
    {s t : List Char} (hc : c ≠ '\n') (h : Widened s t) :
    (find? before (c :: s) = none ∧ find? before (c :: t) = none) ∨
      ∃ a u v rest rest', s = u ++ rest ∧ t = v ++ rest' ∧ Widened u v ∧ Widened rest rest' ∧
        find? before (c :: s) = some (a, rest) ∧ find? before (c :: t) = some (a, rest') := by
  have hrel := hf.widened before c s t hc h
  generalize find? before (c :: s) = x at hrel ⊢
  generalize find? before (c :: t) = y at hrel ⊢
  cases hrel with
  | none => exact .inl ⟨rfl, rfl⟩
  | @some p q hpq =>
    obtain ⟨a, rest⟩ := p
    obtain ⟨b, rest'⟩ := q
    obtain ⟨rfl, ⟨u, rfl⟩, ⟨v, rfl⟩, hrest⟩ : FindsBeside s t (a, rest) (b, rest') := hpq
    exact .inr ⟨a, u, v, rest, rest', rfl, rfl, h.of_append hrest, hrest, rfl, rfl⟩

theorem foundFrom_widened (hf : IgnoresLineEnds find?) {s t : List Char} (h : Widened s t)
    {start start' : List Char} (hs : lineFeeds start = lineFeeds start') (before : Option Char) :
    foundFrom find? start before s = foundFrom find? start' before t := by
  induction hn : s.length using Nat.strong_induction_on generalizing s t start start' before with
  | _ n ih =>
  subst hn
  cases h with
  | nil => rfl
  | @char c s t hc h =>
    rcases hf.find?_widened before hc h with
      ⟨hx, hy⟩ | ⟨a, u, v, rest, rest', rfl, rfl, huv, hrest, hx, hy⟩
    · rw [foundFrom_none hx, foundFrom_none hy]
      refine ih s.length (Nat.lt_succ_self _) h ?_ _ rfl
      rw [lineFeeds_append, lineFeeds_append, hs]
    · rw [foundFrom_some hx, foundFrom_some hy, hs, huv.getLast?_eq]
      refine congrArg _ (ih rest.length ?_ hrest ?_ _ rfl)
      · show rest.length < (c :: (u ++ rest)).length
        rw [List.length_cons, List.length_append]
        omega
      · have hfeeds : lineFeeds v = lineFeeds u := huv.count_eq
        have hcons (w : List Char) : lineFeeds (c :: w) = lineFeeds w :=
          List.count_cons_of_ne hc
        rw [lineFeeds_append, lineFeeds_append, hs, hcons, hcons, hfeeds]
  | @feed pad s t hp h =>
    have hpad := isBlank_of_mem_pads hp
    rw [foundFrom_none (hf.blank before '\n' s (by decide)),
      foundFrom_none (hf.blank before pad _ hpad),
      foundFrom_none (hf.blank (some pad) '\n' t (by decide))]
    refine ih s.length (Nat.lt_succ_self _) h ?_ _ rfl
    have hne : pad ≠ '\n' := by
      rintro rfl
      exact absurd hp (by decide)
    have hpads : lineFeeds [pad] = 0 := List.count_cons_of_ne hne
    rw [lineFeeds_append, lineFeeds_append, lineFeeds_append, hs, hpads, Nat.add_zero]

/-- A search that ignores line ends finds the same in a widened text, on the same lines. -/
theorem found_widened (hf : IgnoresLineEnds find?) {s t : List Char} (h : Widened s t) :
    found find? s = found find? t :=
  foundFrom_widened hf h (rfl : lineFeeds [] = lineFeeds []) none

end Acceptance.Source
