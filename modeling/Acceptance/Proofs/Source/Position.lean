import Mathlib.Data.List.Basic
import Mathlib.Data.List.Flatten
import Acceptance.Proofs.Source.Found
import Acceptance.Proofs.Source.Order

/-!
# Positions in a source

The line of an offset is counted in line feeds, and a line of the source is one of its pieces. Both
number the lines in the same way: a byte belongs to the piece with the number that its offset has, in
both views. So what stands at an offset, a comment among others, stands on a line of the source.

Main results:

* `holdsByte_iff`: the line that holds a byte has the number of its offset.
* `map_raw_lines`, `map_masked_lines`: no line is lost when the two views are put side by side.
* `line_le_length`: the lines of comments.
-/

namespace Acceptance.Source

open Text

/-! ## Bytes of a line -/

/-- Whether the byte at an offset belongs to the line with a number, its line end included: it stands
behind the lines before that line, and not behind that line. -/
def HoldsByte (s : List Char) (number offset : ℕ) : Prop :=
  byteLength ((pieces s).take (number - 1)).flatten ≤ offset ∧
    offset < byteLength ((pieces s).take number).flatten

/-- A byte belongs to one line at most. -/
theorem HoldsByte.unique {s : List Char} {m n offset : ℕ} (hm : HoldsByte s m offset)
    (hn : HoldsByte s n offset) : m = n := by
  have order {m n : ℕ} (hm : HoldsByte s m offset) (hn : HoldsByte s n offset) : n ≤ m := by
    by_contra hlt
    have hle := byteLength_le_of_sublist
      (List.take_sublist_take_left (l := pieces s) (by omega : m ≤ n - 1)).flatten
    have h1 := hm.2
    have h2 := hn.1
    omega
  exact Nat.le_antisymm (order hn hm) (order hm hn)

theorem one_le_lineAt (offset : ℕ) (s : List Char) : 1 ≤ lineAt offset s := by
  rw [lineAt_eq_count]
  exact Nat.le_add_right _ _

/-- The first character belongs to the first line. -/
theorem holdsByte_one {c : Char} {s : List Char} {offset : ℕ} (h : offset < c.utf8Size) :
    HoldsByte (c :: s) 1 offset := by
  obtain ⟨piece, more, hp⟩ : ∃ piece more, pieces (c :: s) = (c :: piece) :: more := by
    by_cases hc : c = '\n'
    · exact ⟨[], pieces s, hc ▸ pieces_newline s⟩
    · rw [pieces_cons hc]
      cases pieces s with
      | nil => exact ⟨[], [], rfl⟩
      | cons piece more => exact ⟨piece, more, rfl⟩
  rw [HoldsByte, hp]
  simp only [Nat.sub_self, List.take_zero, List.take_succ_cons, List.flatten_nil,
    List.flatten_cons, List.append_nil, byteLength_nil, byteLength_cons]
  omega

/-- A line end in front moves a line down by one. -/
theorem HoldsByte.behindFeed {s : List Char} {n offset : ℕ} (h : HoldsByte s (n + 1) offset) :
    HoldsByte ('\n' :: s) (n + 2) ('\n'.utf8Size + offset) := by
  obtain ⟨hfirst, hlast⟩ := h
  rw [HoldsByte, pieces_newline]
  simp only [Nat.add_sub_cancel, Nat.reduceSubDiff, List.take_succ_cons, List.flatten_cons,
    byteLength_append, byteLength_cons, byteLength_nil] at hfirst hlast ⊢
  omega

/-- Another character in front belongs to the first line. -/
theorem HoldsByte.behindChar {c : Char} (hc : c ≠ '\n') {s : List Char} {n offset : ℕ}
    (h : HoldsByte s (n + 1) offset) : HoldsByte (c :: s) (n + 1) (c.utf8Size + offset) := by
  obtain ⟨hfirst, hlast⟩ := h
  rw [HoldsByte, pieces_cons hc, Nat.add_sub_cancel]
  rw [Nat.add_sub_cancel] at hfirst
  cases hp : pieces s with
  | nil =>
    rw [hp] at hlast
    exact absurd hlast (Nat.not_lt_zero _)
  | cons piece more =>
    rw [hp] at hfirst hlast
    have hshift (k : ℕ) : byteLength (((c :: piece) :: more).take (k + 1)).flatten =
        c.utf8Size + byteLength ((piece :: more).take (k + 1)).flatten := by
      simp
    refine ⟨?_, by rw [hshift n]; omega⟩
    cases n with
    | zero => exact Nat.zero_le _
    | succ n =>
      show byteLength (((c :: piece) :: more).take (n + 1)).flatten ≤ _
      rw [hshift n]
      omega

theorem lineAt_of_lt {c : Char} {s : List Char} {offset : ℕ} (h : offset < c.utf8Size) :
    lineAt offset (c :: s) = 1 := by
  by_cases h0 : offset = 0
  · rw [h0, lineAt_zero]
  · have hc : c ≠ '\n' := by
      rintro rfl
      have hsize : '\n'.utf8Size = 1 := by decide
      omega
    rw [lineAt, if_neg h0, if_neg (by simpa using hc), Nat.sub_eq_zero_of_le h.le, lineAt_zero]

theorem lineAt_utf8Size_add (c : Char) (s : List Char) (offset : ℕ) :
    lineAt (c.utf8Size + offset) (c :: s) =
      if c == '\n' then 1 + lineAt offset s else lineAt offset s := by
  have hsize := Char.utf8Size_pos c
  rw [lineAt, if_neg (by omega), Nat.add_sub_cancel_left]

/-- The line of an offset holds the byte there. -/
theorem holdsByte_lineAt {s : List Char} {offset : ℕ} (h : offset < byteLength s) :
    HoldsByte s (lineAt offset s) offset := by
  induction s generalizing offset with
  | nil => exact absurd h (Nat.not_lt_zero _)
  | cons c s ih =>
    by_cases hin : offset < c.utf8Size
    · rw [lineAt_of_lt hin]
      exact holdsByte_one hin
    · obtain ⟨k, rfl⟩ := Nat.exists_eq_add_of_le (Nat.le_of_not_lt hin)
      rw [byteLength_cons] at h
      have hs := ih (by omega : k < byteLength s)
      obtain ⟨n, hn⟩ : ∃ n, lineAt k s = n + 1 :=
        ⟨_, (Nat.sub_add_cancel (one_le_lineAt k s)).symm⟩
      rw [hn] at hs
      rw [lineAt_utf8Size_add, hn]
      split_ifs with hc
      · obtain rfl := eq_of_beq hc
        rw [Nat.add_comm 1]
        exact hs.behindFeed
      · exact hs.behindChar (by simpa using hc)

/-- The line that holds a byte has the number of its offset. -/
theorem holdsByte_iff {s : List Char} {offset : ℕ} (h : offset < byteLength s) (number : ℕ) :
    HoldsByte s number offset ↔ lineAt offset s = number := by
  constructor
  · exact fun hn => (holdsByte_lineAt h).unique hn
  · rintro rfl
    exact holdsByte_lineAt h

/-- No line behind the last one holds a byte. -/
theorem HoldsByte.number_le {s : List Char} {number offset : ℕ} (h : HoldsByte s number offset) :
    number ≤ (pieces s).length := by
  by_contra hlt
  obtain ⟨hfirst, hlast⟩ := h
  rw [List.take_of_length_le (by omega)] at hfirst hlast
  omega

/-! ## Lines side by side -/

theorem map_raw_zipLines {raws maskeds : List (List Char)} (h : raws.length = maskeds.length)
    (number : ℕ) : (zipLines number raws maskeds).map Line.raw = raws := by
  induction raws generalizing number maskeds with
  | nil => rfl
  | cons raw raws ih =>
    cases maskeds with
    | nil => cases h
    | cons masked maskeds => rw [zipLines, List.map_cons, ih (Nat.succ.inj h)]

theorem map_masked_zipLines {raws maskeds : List (List Char)} (h : raws.length = maskeds.length)
    (number : ℕ) : (zipLines number raws maskeds).map Line.masked = maskeds := by
  induction raws generalizing number maskeds with
  | nil => exact (List.length_eq_zero_iff.1 h.symm).symm
  | cons raw raws ih =>
    cases maskeds with
    | nil => cases h
    | cons masked maskeds => rw [zipLines, List.map_cons, ih (Nat.succ.inj h)]

theorem map_number_zipLines {raws maskeds : List (List Char)} (h : raws.length = maskeds.length)
    (number : ℕ) : (zipLines number raws maskeds).map Line.number = List.range' number raws.length := by
  induction raws generalizing number maskeds with
  | nil => rfl
  | cons raw raws ih =>
    cases maskeds with
    | nil => cases h
    | cons masked maskeds =>
      rw [zipLines, List.map_cons, ih (Nat.succ.inj h), List.length_cons, List.range'_succ]

variable (s : List Char)

theorem map_raw_lines : (ofChars s).lines.map Line.raw = (pieces s).map withoutEnd := by
  rw [map_withoutEnd_pieces]
  exact map_raw_zipLines (length_lines_mask s).symm 1

theorem map_masked_lines : (ofChars s).lines.map Line.masked = (pieces (mask s)).map withoutEnd := by
  rw [map_withoutEnd_pieces]
  exact map_masked_zipLines (length_lines_mask s).symm 1

theorem length_lines_pieces : (ofChars s).lines.length = (pieces s).length := by
  have h := congrArg List.length (map_raw_lines s)
  rwa [List.length_map, List.length_map] at h

theorem map_number_lines :
    (ofChars s).lines.map Line.number = List.range' 1 (ofChars s).lines.length := by
  rw [length_lines_pieces, ← @List.length_map _ _ (pieces s) withoutEnd, map_withoutEnd_pieces]
  exact map_number_zipLines (length_lines_mask s).symm 1

/-- The offset of a byte has the number of a line. -/
theorem lineOf_le_length {offset : ℕ} (h : offset < byteLength s) :
    (ofChars s).lineOf offset ≤ (ofChars s).lines.length := by
  rw [length_lines_pieces]
  exact (holdsByte_lineAt h).number_le

/-! ## Lines of comments -/

theorem byteLength_written_pos {t : Token} {text : List Char} (h : t.comment? = some text) :
    0 < byteLength t.written := by
  have hslash : '/'.utf8Size = 1 := by decide
  cases t with
  | code c => cases h
  | name written => cases h
  | literal body closed => cases h
  | lineComment body =>
    rw [Token.written, byteLength_cons]
    omega
  | blockComment body closed =>
    cases closed <;> simp only [Token.written, List.cons_append, byteLength_cons] <;> omega

/-- A comment opens on a line of its source. -/
theorem line_le_length {c : Comment} (h : c ∈ (ofChars s).comments) :
    c.line ≤ (ofChars s).lines.length := by
  rw [comments_eq] at h
  obtain ⟨⟨t, i⟩, hmem, hc⟩ := List.mem_filterMap.1 h
  obtain ⟨text, htext, rfl⟩ := Option.map_eq_some_iff.1 hc
  refine lineOf_le_length s ?_
  -- the sign of the comment stands behind the offset
  have hget : (tokens s)[i]? = some t := List.mem_zipIdx_iff_getElem?.1 hmem
  obtain ⟨hi, ht⟩ := List.getElem?_eq_some_iff.1 hget
  have hsplit : byteLength s = byteLength (((tokens s).take i).flatMap Token.written) +
      (byteLength t.written + byteLength (((tokens s).drop (i + 1)).flatMap Token.written)) := by
    rw [← byteLength_append, ← List.flatMap_cons, ← ht, ← List.drop_eq_getElem_cons hi,
      ← byteLength_append, ← List.flatMap_append, List.take_append_drop, flatMap_written_tokens]
  have hpos : 0 < byteLength t.written := byteLength_written_pos htext
  show byteLength (((tokens s).take i).flatMap Token.written) < byteLength s
  omega

end Acceptance.Source
