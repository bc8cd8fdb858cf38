import Mathlib.Data.List.Basic
import Mathlib.Data.List.Forall2
import Acceptance.Proofs.Source.Masking
import Acceptance.Proofs.Text.Lines

/-!
# The lines of both views

Hiding keeps line feeds, and no other character becomes one. So the two views of a source have the
same number of lines, and every line has one with its number in the other view.

Main results:

* `lineFeeds_mask`, `endsWithLine_mask_iff`: the line feeds of the masked view.
* `length_lines_mask`: the two views have the same number of lines.
* `zipLines_append`, `zipLines_add`: lines side by side in parts, and with other numbers.
* `pairwise_commentsFrom`: the order of comments.
-/

namespace Acceptance.Source

open Text

/-! ## Line feeds -/

theorem lineFeeds_append (s t : List Char) : lineFeeds (s ++ t) = lineFeeds s + lineFeeds t :=
  List.count_append

theorem lineFeeds_hide (s : List Char) : lineFeeds (hide s) = lineFeeds s := by
  induction s with
  | nil => rfl
  | cons c s ih =>
    rw [← List.singleton_append, hide_append, lineFeeds_append, ih, lineFeeds_append]
    by_cases hc : c = '\n'
    · subst hc
      rfl
    · have hh : hide [c] = List.replicate c.utf8Size ' ' := by simp [hide, hc]
      rw [hh]
      simp [lineFeeds, List.count_replicate, hc]

theorem lineFeeds_masked (t : Token) : lineFeeds t.masked = lineFeeds t.written := by
  cases t with
  | code c => rfl
  | name written => rfl
  | lineComment body => exact lineFeeds_hide _
  | blockComment body closed => exact lineFeeds_hide _
  | literal body closed => exact lineFeeds_hide _

theorem lineFeeds_mask (s : List Char) : lineFeeds (mask s) = lineFeeds s := by
  have key : ∀ ts : List Token,
      lineFeeds (ts.flatMap Token.masked) = lineFeeds (ts.flatMap Token.written) := by
    intro ts
    induction ts with
    | nil => rfl
    | cons t ts ih =>
      rw [List.flatMap_cons, List.flatMap_cons, lineFeeds_append, lineFeeds_append, ih,
        lineFeeds_masked]
  rw [mask, key, flatMap_written_tokens]

/-- A text ends with a line if its last byte is a line feed. -/
theorem endsWithLine_iff_utf8 {s : List Char} :
    EndsWithLine s ↔ ∀ flag ∈ (lineFeedFlags (utf8 s)).getLast?, flag = true := by
  rcases List.eq_nil_or_concat s with rfl | ⟨start, c, rfl⟩
  · exact iff_of_true (by rintro c ⟨⟩) (by rintro flag ⟨⟩)
  rw [List.concat_eq_append]
  obtain ⟨bytes, b, hb⟩ : ∃ bytes b, String.utf8EncodeChar c = bytes ++ [b] := by
    have hne : String.utf8EncodeChar c ≠ [] := by
      intro hn
      have hlen := congrArg List.length hn
      rw [String.length_utf8EncodeChar] at hlen
      exact absurd hlen (Char.utf8Size_pos c).ne'
    exact ⟨_, _, (List.dropLast_append_getLast hne).symm⟩
  have hlast : (utf8 (start ++ [c])).getLast? = some b := by
    rw [utf8_append, utf8_cons, utf8_nil, List.append_nil, hb, ← List.append_assoc,
      List.getLast?_concat]
  have hbyte : b = lineFeedByte ↔ c = '\n' := by
    constructor
    · rintro rfl
      exact eq_lineFeed_of_mem (hb ▸ by simp)
    · rintro rfl
      have hc : String.utf8EncodeChar '\n' = [] ++ [lineFeedByte] := by decide
      exact List.singleton_injective (List.append_inj' (hb.symm.trans hc) rfl).2
  rw [lineFeedFlags, List.getLast?_map, hlast, EndsWithLine, List.getLast?_concat]
  simp [hbyte]

theorem endsWithLine_mask_iff {s : List Char} : EndsWithLine (mask s) ↔ EndsWithLine s := by
  rw [endsWithLine_iff_utf8, endsWithLine_iff_utf8, lineFeedFlags_mask]

theorem length_lines_mask (s : List Char) :
    (Text.lines (mask s)).length = (Text.lines s).length := by
  have hfeeds : (mask s).count '\n' = s.count '\n' := lineFeeds_mask s
  rw [length_lines_eq, length_lines_eq, hfeeds]
  simp only [endsWithLine_mask_iff]

/-! ## Lines side by side -/

theorem between_iff {first last line : ℕ} :
    between first last line = true ↔ first ≤ line ∧ line ≤ last := by
  rw [between, Bool.and_eq_true, decide_eq_true_eq, decide_eq_true_eq]

/-- A line with its number counted on by `n`. -/
def Line.shift (n : ℕ) (l : Line) : Line := { l with number := l.number + n }

@[simp] theorem Line.number_shift (n : ℕ) (l : Line) : (l.shift n).number = l.number + n := rfl

theorem zipLines_add (number n : ℕ) (raws maskeds : List (List Char)) :
    zipLines (number + n) raws maskeds = (zipLines number raws maskeds).map (Line.shift n) := by
  induction raws generalizing number maskeds with
  | nil => rfl
  | cons raw raws ih =>
    cases maskeds with
    | nil => rfl
    | cons masked maskeds =>
      rw [zipLines, zipLines, List.map_cons, ← ih, Nat.add_right_comm]
      rfl

theorem zipLines_append {raws maskeds : List (List Char)} (h : raws.length = maskeds.length)
    (number : ℕ) (moreRaws moreMaskeds : List (List Char)) :
    zipLines number (raws ++ moreRaws) (maskeds ++ moreMaskeds) =
      zipLines number raws maskeds ++ zipLines (number + raws.length) moreRaws moreMaskeds := by
  induction raws generalizing number maskeds with
  | nil =>
    obtain rfl := List.length_eq_zero_iff.1 h.symm
    rfl
  | cons raw raws ih =>
    cases maskeds with
    | nil => cases h
    | cons masked maskeds =>
      rw [List.cons_append, List.cons_append, zipLines, zipLines, ih (Nat.succ.inj h),
        List.cons_append, List.length_cons, Nat.add_right_comm, Nat.add_assoc]

/-- Lines side by side are numbered in a row. -/
theorem number_of_zipLines_eq {number : ℕ} {raws maskeds : List (List Char)}
    {before after : List Line} {l : Line}
    (h : zipLines number raws maskeds = before ++ l :: after) :
    l.number = number + before.length := by
  induction before generalizing number raws maskeds with
  | nil =>
    cases raws with
    | nil => cases h
    | cons raw raws =>
      cases maskeds with
      | nil => cases h
      | cons masked maskeds =>
        rw [zipLines] at h
        rw [← (List.cons.inj h).1]
        rfl
  | cons k before ih =>
    cases raws with
    | nil => cases h
    | cons raw raws =>
      cases maskeds with
      | nil => cases h
      | cons masked maskeds =>
        rw [zipLines] at h
        rw [ih (List.cons.inj h).2, List.length_cons]
        omega

theorem length_zipLines {raws maskeds : List (List Char)} (h : raws.length = maskeds.length)
    (number : ℕ) : (zipLines number raws maskeds).length = raws.length := by
  induction raws generalizing number maskeds with
  | nil => rfl
  | cons raw raws ih =>
    cases maskeds with
    | nil => cases h
    | cons masked maskeds => rw [zipLines, List.length_cons, ih (Nat.succ.inj h), List.length_cons]

/-- Lines side by side, made of texts that are related one by one. -/
theorem forall₂_zipLines {R : Line → Line → Prop} {P Q : List Char → List Char → Prop}
    (hR : ∀ number raw raw' masked masked', P raw raw' → Q masked masked' →
      R ⟨number, raw, masked⟩ ⟨number, raw', masked'⟩)
    {raws raws' maskeds maskeds' : List (List Char)} (hraws : List.Forall₂ P raws raws')
    (hmaskeds : List.Forall₂ Q maskeds maskeds') (number : ℕ) :
    List.Forall₂ R (zipLines number raws maskeds) (zipLines number raws' maskeds') := by
  induction hraws generalizing number maskeds maskeds' with
  | nil => exact .nil
  | cons hraw _ ih =>
    cases hmaskeds with
    | nil => exact .nil
    | cons hmasked hmaskeds => exact .cons (hR _ _ _ _ _ hraw hmasked) (ih hmaskeds _)

theorem number_lt_of_mem_zipLines {number : ℕ} {raws maskeds : List (List Char)} {l : Line}
    (h : l ∈ zipLines number raws maskeds) :
    l.number < (zipLines number raws maskeds).length + number := by
  induction raws generalizing number maskeds with
  | nil =>
    rw [zipLines] at h
    · cases h
    · rintro _ _ _ _ ⟨⟩
  | cons raw raws ih =>
    cases maskeds with
    | nil => cases h
    | cons masked maskeds =>
      rw [zipLines] at h ⊢
      rw [List.length_cons]
      rcases List.mem_cons.1 h with rfl | h
      · show number < _
        omega
      · have := ih h
        omega

/-! ## Lines of comments -/

theorem commentsFrom_cons (line : ℕ) (t : Token) (ts : List Token) :
    commentsFrom line (t :: ts) =
      (t.comment?.map (Comment.mk line)).toList ++ commentsFrom (line + lineFeeds t.written) ts := by
  rw [commentsFrom]
  cases t.comment? <;> rfl

theorem one_le_of_mem_commentsFrom {line : ℕ} {ts : List Token} {c : Comment}
    (h : c ∈ commentsFrom line ts) : line ≤ c.line := by
  induction ts generalizing line with
  | nil => cases h
  | cons t ts ih =>
    rw [commentsFrom_cons] at h
    rcases List.mem_append.1 h with h | h
    · obtain ⟨text, -, rfl⟩ := Option.map_eq_some_iff.1 (Option.mem_toList.1 h)
      exact le_rfl
    · exact Nat.le_trans (Nat.le_add_right _ _) (ih h)

/-- Comments are listed line by line. -/
theorem pairwise_commentsFrom (line : ℕ) (ts : List Token) :
    (commentsFrom line ts).Pairwise fun c d => c.line ≤ d.line := by
  induction ts generalizing line with
  | nil => exact .nil
  | cons t ts ih =>
    rw [commentsFrom_cons]
    cases t.comment? with
    | none => exact ih _
    | some text =>
      refine List.pairwise_cons.2 ⟨fun d hd => ?_, ih _⟩
      have hline := one_le_of_mem_commentsFrom hd
      show line ≤ d.line
      omega

end Acceptance.Source
