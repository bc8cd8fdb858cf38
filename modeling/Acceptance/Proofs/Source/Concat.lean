import Mathlib.Data.List.Basic
import Acceptance.Proofs.Source.Lines
import Acceptance.Proofs.Source.Report

/-!
# The views of two sources one after the other

Where a source ends with a line and in code, no token of it reaches into the text behind it. So both
views and the comments of the whole are those of the two parts, with the lines of the second part
counted on from the first.

Main results:

* `tokens_append_of_code`: the tokens of the two parts.
* `lines_append`, `comments_append`: their lines and their comments.
-/

namespace Acceptance.Source

open Text

/-! ## The end of a text in code -/

/-- The mode in which the end of a text is reached. -/
def modeAfter : Mode → List Char → Mode
  | mode, [] => mode
  | .code, '/' :: '/' :: rest => modeAfter (.lineComment []) rest
  | .code, '/' :: '*' :: rest => modeAfter (.blockComment []) rest
  | .code, '\'' :: rest => modeAfter (.literal []) rest
  | .code, '"' :: rest => modeAfter (.name ['"']) rest
  | .code, _ :: rest => modeAfter .code rest
  | .name read, c :: rest =>
    if c == '"' || c == '\n' then modeAfter .code rest else modeAfter (.name (c :: read)) rest
  | .lineComment _, '\n' :: rest => modeAfter .code rest
  | .lineComment read, c :: rest => modeAfter (.lineComment (c :: read)) rest
  | .blockComment _, '*' :: '/' :: rest => modeAfter .code rest
  | .blockComment read, c :: rest => modeAfter (.blockComment (c :: read)) rest
  | .literal read, '\'' :: '\'' :: rest => modeAfter (.literal ('\'' :: '\'' :: read)) rest
  | .literal _, '\'' :: rest => modeAfter .code rest
  | .literal read, c :: rest => modeAfter (.literal (c :: read)) rest

theorem tokensFrom_code_eq_nil {s : List Char} (h : tokensFrom .code s = []) : s = [] := by
  have := flatMap_written_tokensFrom .code s
  rw [h] at this
  exact this.symm

theorem EndsLine.cons {t : Token} {ts : List Token} (ht : ts = [] → t.endsLine = true)
    (hs : EndsLine ts) : EndsLine (t :: ts) := by
  intro u hu
  rw [List.getLast?_cons] at hu
  cases hl : ts.getLast? with
  | none =>
    rw [hl] at hu
    cases hu
    exact ht (List.getLast?_eq_none_iff.1 hl)
  | some w =>
    rw [hl] at hu
    cases hu
    exact hs w hl

/-- Where a text ends with a line and in code, its last token ends with the line. -/
theorem endsLine_tokensFrom {mode : Mode} {s : List Char} (hs : EndsWithLine s)
    (hm : modeAfter mode s = .code) : EndsLine (tokensFrom mode s) := by
  -- a token that the last character completes has that character, a line feed, at its end
  have last {t : Token} {c : Char} {rest : List Char} (h : EndsWithLine (c :: rest))
      (ht : c = '\n' → t.endsLine = true) (hrest : EndsLine (tokensFrom .code rest)) :
      EndsLine (t :: tokensFrom .code rest) := by
    refine .cons (fun hn => ?_) hrest
    obtain rfl := tokensFrom_code_eq_nil hn
    exact ht (h c rfl)
  fun_induction tokensFrom mode s with
  | case1 mode =>
    obtain rfl : mode = .code := by rw [← hm, modeAfter]
    rintro t ⟨⟩
  | case2 rest ih => exact ih hs.of_cons.of_cons (by simpa only [modeAfter] using hm)
  | case3 rest ih => exact ih hs.of_cons.of_cons (by simpa only [modeAfter] using hm)
  | case4 rest ih => exact ih hs.of_cons (by simpa only [modeAfter] using hm)
  | case5 rest ih => exact ih hs.of_cons (by simpa only [modeAfter] using hm)
  | case6 c rest h1 h2 h3 h4 ih =>
    rw [modeAfter] at hm
    · exact last hs (by rintro rfl; rfl) (ih hs.of_cons hm)
    all_goals assumption
  | case7 read c rest hc ih =>
    rw [modeAfter, if_pos hc] at hm
    exact last hs (by rintro rfl; simp [Token.endsLine]) (ih hs.of_cons hm)
  | case8 read c rest hc ih =>
    rw [modeAfter, if_neg hc] at hm
    exact ih hs.of_cons hm
  | case9 read rest ih =>
    rw [modeAfter] at hm
    exact .cons (fun h => absurd h (List.cons_ne_nil _ _))
      (last hs (fun _ => rfl) (ih hs.of_cons hm))
  | case10 read c rest h1 ih => exact ih hs.of_cons (by simpa [modeAfter, h1] using hm)
  | case11 read rest ih =>
    rw [modeAfter] at hm
    exact last hs.of_cons (fun h => absurd h (by decide)) (ih hs.of_cons.of_cons hm)
  | case12 read c rest h1 ih =>
    rw [modeAfter] at hm
    · exact ih hs.of_cons hm
    · exact h1
  | case13 read rest ih => exact ih hs.of_cons.of_cons (by simpa only [modeAfter] using hm)
  | case14 read rest h1 ih =>
    rw [modeAfter] at hm
    · exact last hs (fun h => absurd h (by decide)) (ih hs.of_cons hm)
    · exact h1
  | case15 read c rest h1 h2 ih =>
    rw [modeAfter] at hm
    · exact ih hs.of_cons hm
    · exact h1
    · exact h2

variable {a : List Char}

theorem tokens_append_of_code (ha : EndsWithLine a) (hm : modeAfter .code a = .code)
    (b : List Char) : tokens (a ++ b) = tokens a ++ tokens b :=
  tokens_append (endsLine_tokensFrom ha hm) b

theorem mask_append (ha : EndsWithLine a) (hm : modeAfter .code a = .code) (b : List Char) :
    mask (a ++ b) = mask a ++ mask b := by
  rw [mask, tokens_append_of_code ha hm, List.flatMap_append, mask, mask]

/-! ## The end of the masked view -/

/-- A token that ends with a line is not hidden, and has the line feed at its end. -/
theorem Token.written_of_endsLine {t : Token} (h : t.endsLine = true) :
    t.masked = t.written ∧ t.written.getLast? = some '\n' := by
  cases t with
  | code c =>
    obtain rfl : c = '\n' := beq_iff_eq.1 h
    exact ⟨rfl, rfl⟩
  | name written => exact ⟨rfl, beq_iff_eq.1 h⟩
  | lineComment body => cases h
  | blockComment body closed => cases h
  | literal body closed => cases h

/-- A last token that ends with a line has a line feed. -/
theorem EndsLine.lineFeeds_pos {ts : List Token} (h : EndsLine ts) (hne : ts ≠ []) :
    0 < lineFeeds (ts.flatMap Token.written) := by
  obtain ⟨us, t, rfl⟩ := (List.eq_nil_or_concat ts).resolve_left hne
  rw [List.concat_eq_append] at h ⊢
  have hm : '\n' ∈ t.written :=
    List.mem_of_getLast? (Token.written_of_endsLine (h t (by simp))).2
  rw [List.flatMap_append, List.flatMap_singleton, lineFeeds_append]
  exact Nat.add_pos_right _ (List.count_pos_iff.2 hm)

/-- Where the last token ends with a line, the masked view does. -/
theorem endsWithLine_mask {s : List Char} (h : EndsLine (tokens s)) : EndsWithLine (mask s) := by
  rw [mask]
  rcases List.eq_nil_or_concat (tokens s) with hs | ⟨ts, t, hs⟩
  · rw [hs]
    rintro c ⟨⟩
  · rw [List.concat_eq_append] at hs
    rw [hs] at h ⊢
    have ht : t.masked.getLast? = some '\n' := by
      obtain ⟨hw, ht⟩ := Token.written_of_endsLine (h t (by simp))
      rw [hw, ht]
    have hne : t.masked ≠ [] := by
      intro hn
      rw [hn] at ht
      cases ht
    intro c hc
    rw [List.flatMap_append, List.flatMap_singleton, List.getLast?_append_of_ne_nil _ hne, ht] at hc
    exact (Option.some.inj hc).symm

/-! ## Lines -/

section Parts

variable (ha : EndsWithLine a) (hm : modeAfter .code a = .code)

include ha hm

/-- The two views of a source that ends with a line have a line for each line feed. -/
theorem length_lines_views :
    (Text.lines a).length = lineFeeds a ∧ (Text.lines (mask a)).length = lineFeeds a := by
  refine ⟨length_lines ha, ?_⟩
  rw [length_lines (endsWithLine_mask (endsLine_tokensFrom ha hm)), ← lineFeeds, lineFeeds_mask]

theorem length_lines_ofChars : (ofChars a).lines.length = lineFeeds a := by
  obtain ⟨hr, hk⟩ := length_lines_views ha hm
  exact (length_zipLines (hr.trans hk.symm) 1).trans hr

theorem lines_append (b : List Char) :
    (ofChars (a ++ b)).lines =
      (ofChars a).lines ++ (ofChars b).lines.map (Line.shift (lineFeeds a)) := by
  obtain ⟨hr, hk⟩ := length_lines_views ha hm
  have hmask := endsWithLine_mask (endsLine_tokensFrom ha hm)
  show zipLines 1 (Text.lines (a ++ b)) (Text.lines (mask (a ++ b))) = _
  rw [mask_append ha hm, Text.lines_append ha, Text.lines_append hmask,
    zipLines_append (hr.trans hk.symm), hr, zipLines_add]
  rfl

end Parts

/-! ## Comments -/

/-- A comment with its line counted on by `n`. -/
def Comment.shift (n : ℕ) (c : Comment) : Comment := { c with line := c.line + n }

@[simp] theorem Comment.line_shift (n : ℕ) (c : Comment) : (c.shift n).line = c.line + n := rfl

theorem commentsFrom_add (line n : ℕ) (ts : List Token) :
    commentsFrom (line + n) ts = (commentsFrom line ts).map (Comment.shift n) := by
  induction ts generalizing line with
  | nil => rfl
  | cons t ts ih =>
    rw [commentsFrom, commentsFrom, Nat.add_right_comm, ih]
    cases t.comment? with
    | none => rfl
    | some text => rfl

theorem commentsFrom_append_tokens (line : ℕ) (ts us : List Token) :
    commentsFrom line (ts ++ us) =
      commentsFrom line ts ++ commentsFrom (line + lineFeeds (ts.flatMap Token.written)) us := by
  induction ts generalizing line with
  | nil => rfl
  | cons t ts ih =>
    rw [List.cons_append, commentsFrom, commentsFrom, ih, List.flatMap_cons, lineFeeds_append,
      Nat.add_assoc]
    cases t.comment? with
    | none => rfl
    | some text => rfl

theorem comments_append (ha : EndsWithLine a) (hm : modeAfter .code a = .code) (b : List Char) :
    (ofChars (a ++ b)).comments =
      (ofChars a).comments ++ (ofChars b).comments.map (Comment.shift (lineFeeds a)) := by
  show commentsFrom 1 (tokens (a ++ b)) = _
  rw [tokens_append_of_code ha hm, commentsFrom_append_tokens, flatMap_written_tokens,
    commentsFrom_add]
  rfl

/-- A comment of a source that ends with a line opens on one of its lines. -/
theorem line_le_of_mem_comments (ha : EndsWithLine a) (hm : modeAfter .code a = .code)
    {c : Comment} (h : c ∈ (ofChars a).comments) : c.line ≤ lineFeeds a := by
  have key : ∀ (ts : List Token) (line : ℕ), EndsLine ts → ∀ c ∈ commentsFrom line ts,
      c.line < line + lineFeeds (ts.flatMap Token.written) := by
    intro ts
    induction ts with
    | nil => rintro line - c ⟨⟩
    | cons t ts ih =>
      intro line he c hc
      rw [commentsFrom] at hc
      rw [List.flatMap_cons, lineFeeds_append, ← Nat.add_assoc]
      cases ht : t.comment? with
      | none =>
        rw [ht] at hc
        exact ih _ he.of_cons c hc
      | some text =>
        rw [ht] at hc
        rcases List.mem_cons.1 hc with rfl | hc
        · -- a comment is not the last token, and the last one has a line feed
          have hne : ts ≠ [] := he.ne_nil (by
            cases t with
            | lineComment body => rfl
            | blockComment body closed => rfl
            | code c => cases ht
            | name written => cases ht
            | literal body closed => cases ht)
          have hpos := he.of_cons.lineFeeds_pos hne
          show line < _
          omega
        · exact ih _ he.of_cons c hc
  have := key (tokens a) 1 (endsLine_tokensFrom ha hm) c h
  rw [flatMap_written_tokens] at this
  omega

end Acceptance.Source
