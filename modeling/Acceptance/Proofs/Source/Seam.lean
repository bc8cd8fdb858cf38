import Mathlib.Data.List.Basic
import Acceptance.Proofs.Source.Grammar
import Acceptance.Source.View

/-!
# Sources put together

Where the tokens of a text end with a line, nothing of it reaches into the text behind it. So the
tokens of two such texts one after the other are those of the first followed by those of the second,
and a source whose lines leave nothing open can be looked at line by line.

Main results:

* `Reads.append`: readings are put together at the end of a line.
* `lines_join`, `comments_join`: the lines and comments of a source are those of its lines.
-/

namespace Acceptance.Source

open Text

/-! ## Where tokens end with a line -/

/-- Whether a token ends with a line and reaches no further, whatever comes behind it. -/
def Token.endsLine : Token → Bool
  | code c => c == '\n'
  | name written => written.getLast? == some '\n'
  | _ => false

/-- The last token, if there is one, ends with a line. -/
def EndsLine (ts : List Token) : Prop := ∀ t ∈ ts.getLast?, t.endsLine = true

instance (ts : List Token) : Decidable (EndsLine ts) := by
  unfold EndsLine
  infer_instance

theorem EndsLine.of_cons {t : Token} {ts : List Token} (h : EndsLine (t :: ts)) : EndsLine ts := by
  intro u hu
  refine h u ?_
  rw [List.getLast?_cons]
  cases hl : ts.getLast? with
  | none => rw [hl] at hu; cases hu
  | some w => rw [hl] at hu; cases hu; rfl

/-- A token that does not end with a line has another one behind it. -/
theorem EndsLine.ne_nil {t : Token} {ts : List Token} (h : EndsLine (t :: ts))
    (ht : t.endsLine = false) : ts ≠ [] := by
  rintro rfl
  have := h t rfl
  simp [ht] at this

theorem Reads.ne_nil {s : List Char} {ts : List Token} (h : Reads s ts) (ht : ts ≠ []) : s ≠ [] := by
  rintro rfl
  cases h
  exact ht rfl

theorem Reads.append {s rest : List Char} {ts us : List Token} (h : Reads s ts) (he : EndsLine ts)
    (hr : Reads rest us) : Reads (s ++ rest) (ts ++ us) := by
  -- a first character that is there stays where it is
  have head : ∀ {t : List Char}, t ≠ [] → (t ++ rest).head? = t.head? := by
    intro t ht
    cases t with
    | nil => exact absurd rfl ht
    | cons c t => rfl
  induction h with
  | done => exact hr
  | @lineComment body s ts hb hs h ih =>
    have hne := h.ne_nil (he.ne_nil rfl)
    rw [List.cons_append, List.cons_append, List.append_assoc]
    exact .lineComment hb (.inr ((head hne).trans (hs.resolve_left hne))) (ih he.of_cons)
  | blockComment hb _ ih =>
    rw [List.cons_append, List.cons_append, List.append_assoc, List.append_assoc]
    exact .blockComment hb (ih he.of_cons)
  | openBlockComment hb => exact absurd rfl (he.ne_nil rfl)
  | @literal body s ts hb hs h ih =>
    have hne := h.ne_nil (he.ne_nil rfl)
    rw [List.cons_append, List.append_assoc]
    exact .literal hb ((head hne).symm ▸ hs) (ih he.of_cons)
  | openLiteral hb => exact absurd rfl (he.ne_nil rfl)
  | name hq hn hc _ ih =>
    rw [List.cons_append, List.append_assoc]
    exact .name hq hn hc (ih he.of_cons)
  | @openName body hq hn =>
    have hl : ('"' :: body).getLast? ≠ some '\n' := fun hl =>
      (List.mem_cons.1 (List.mem_of_getLast? hl)).elim (by decide) hn
    have := he _ rfl
    simp [Token.endsLine, hl] at this
  | @code c s ts hc h ih =>
    refine .code ?_ (ih he.of_cons)
    cases ts with
    | nil =>
      have : c = '\n' := by simpa [Token.endsLine] using he _ rfl
      subst this
      exact ⟨by decide, by decide, fun h => absurd h (by decide)⟩
    | cons t ts =>
      have hne := h.ne_nil (List.cons_ne_nil t ts)
      exact ⟨hc.1, hc.2.1, (head hne).symm ▸ hc.2.2⟩

theorem tokens_append {s : List Char} (h : EndsLine (tokens s)) (rest : List Char) :
    tokens (s ++ rest) = tokens s ++ tokens rest :=
  ((reads_tokens s).append h (reads_tokens rest)).tokens_eq

/-! ## Lines that leave nothing open -/

/-- Whether a line feed behind a line is a token of its own. -/
def IsWhole (line : List Char) : Prop := tokens (line ++ ['\n']) = tokens line ++ [.code '\n']

instance (line : List Char) : Decidable (IsWhole line) := by
  unfold IsWhole
  infer_instance

theorem IsWhole.tokens_append {line : List Char} (h : IsWhole line) (rest : List Char) :
    tokens (line ++ '\n' :: rest) = tokens line ++ .code '\n' :: tokens rest := by
  have he : EndsLine (tokens (line ++ ['\n'])) := by
    rw [h]
    intro t ht
    rw [List.getLast?_concat] at ht
    cases ht
    rfl
  have := Source.tokens_append he rest
  rw [h] at this
  simpa using this

/-- Lines one after the other, each with its line feed. -/
def joinLines (lines : List (List Char)) : List Char := lines.flatMap (· ++ ['\n'])

@[simp] theorem joinLines_nil : joinLines [] = [] := rfl

@[simp] theorem joinLines_cons (line : List Char) (lines : List (List Char)) :
    joinLines (line :: lines) = line ++ '\n' :: joinLines lines := by
  simp [joinLines]

/-- A suffix of lines one after the other starts on one of them. -/
theorem suffix_joinLines {lines : List (List Char)} {t : List Char} (h : t <:+ joinLines lines) :
    t = [] ∨ ∃ line ∈ lines, ∃ u later, u <:+ line ∧ t = u ++ '\n' :: later := by
  induction lines with
  | nil => exact .inl (List.suffix_nil.1 h)
  | cons line lines ih =>
    rw [joinLines_cons] at h
    obtain ⟨before, he⟩ := h
    rcases List.append_eq_append_iff.1 he with ⟨u, rfl, ht⟩ | ⟨u, -, ht⟩
    · exact .inr ⟨before ++ u, List.mem_cons_self, u, _, List.suffix_append before u, ht⟩
    · cases u with
      | nil =>
        rw [List.nil_append] at ht
        exact .inr ⟨line, List.mem_cons_self, [], _, List.nil_suffix, ht.symm⟩
      | cons c u =>
        rcases ih ⟨u, (List.cons.inj ht).2.symm⟩ with h | ⟨l, hl, h⟩
        · exact .inl h
        · exact .inr ⟨l, List.mem_cons_of_mem _ hl, h⟩

theorem tokens_join {lines : List (List Char)} (h : ∀ line ∈ lines, IsWhole line) :
    tokens (joinLines lines) = lines.flatMap fun line => tokens line ++ [.code '\n'] := by
  induction lines with
  | nil => rfl
  | cons line lines ih =>
    rw [joinLines_cons, (h line List.mem_cons_self).tokens_append,
      ih fun l hl => h l (List.mem_cons_of_mem _ hl)]
    simp

theorem mask_join {lines : List (List Char)} (h : ∀ line ∈ lines, IsWhole line) :
    mask (joinLines lines) = joinLines (lines.map mask) := by
  rw [mask, tokens_join h, List.flatMap_assoc, joinLines, List.flatMap_map]
  refine congrArg (List.flatMap · lines) (funext fun line => ?_)
  simp [mask, Token.masked]

/-! ## Line feeds and carriage returns -/

theorem mem_hide {c : Char} {s : List Char} (h : c ∈ hide s) : c = ' ' ∨ c = '\n' ∧ c ∈ s := by
  obtain ⟨d, hd, hc⟩ := List.mem_flatMap.1 h
  by_cases hn : d = '\n'
  · subst hn
    have hc : c = '\n' := by simpa using hc
    exact .inr ⟨hc, hc ▸ hd⟩
  · rw [if_neg (by simpa using hn)] at hc
    exact .inl (List.eq_of_mem_replicate hc)

/-- A character of the masked view other than a space is one of the source. -/
theorem mem_of_mem_mask {c : Char} {s : List Char} (h : c ∈ mask s) (hc : c ≠ ' ') : c ∈ s := by
  obtain ⟨t, ht, hm⟩ := List.mem_flatMap.1 h
  have hw : c ∈ t.written := by
    cases t with
    | code d => exact hm
    | name written => exact hm
    | lineComment body => exact ((mem_hide hm).resolve_left hc).2
    | blockComment body closed => exact ((mem_hide hm).resolve_left hc).2
    | literal body closed => exact ((mem_hide hm).resolve_left hc).2
  rw [← flatMap_written_tokens s]
  exact List.mem_flatMap.2 ⟨t, ht, hw⟩

theorem masked_eq_nil_iff (t : Token) : t.masked = [] ↔ t.written = [] := by
  have key : ∀ s : List Char, hide s = [] ↔ s = [] := by
    intro s
    have empty : ∀ u : List Char, byteLength u = 0 ↔ u = [] := by
      intro u
      cases u with
      | nil => simp
      | cons c u =>
        have := Char.utf8Size_pos c
        simp
        omega
    rw [← empty, byteLength_hide, empty]
  cases t with
  | code c => exact Iff.rfl
  | name written => exact Iff.rfl
  | lineComment body => exact key _
  | blockComment body closed => exact key _
  | literal body closed => exact key _

/-- Where the masked view ends with a carriage return, the source does. -/
theorem getLast?_of_mask {s : List Char} (h : (mask s).getLast? = some '\r') :
    s.getLast? = some '\r' := by
  have key : ∀ ts : List Token, (ts.flatMap Token.masked).getLast? = some '\r' →
      (ts.flatMap Token.written).getLast? = some '\r' := by
    intro ts
    induction ts using List.reverseRecOn with
    | nil => simp
    | append_singleton ts t ih =>
      intro h
      rw [List.flatMap_append, List.flatMap_singleton] at h ⊢
      by_cases ht : t.written = []
      · rw [(masked_eq_nil_iff t).2 ht, List.append_nil] at h
        rw [ht, List.append_nil]
        exact ih h
      · have hm : t.masked ≠ [] := fun hm => ht ((masked_eq_nil_iff t).1 hm)
        rw [List.getLast?_append_of_ne_nil _ hm] at h
        rw [List.getLast?_append_of_ne_nil _ ht]
        -- a hidden token holds spaces and line feeds
        have hidden : t.masked ≠ hide t.written := by
          intro he
          rw [he] at h
          have := mem_hide (List.mem_of_getLast? h)
          simp at this
        cases t with
        | code c => exact h
        | name written => exact h
        | lineComment body => exact absurd rfl hidden
        | blockComment body closed => exact absurd rfl hidden
        | literal body closed => exact absurd rfl hidden
  have := key (tokens s) h
  rwa [flatMap_written_tokens] at this

theorem lines_append_newline {line : List Char} (hn : '\n' ∉ line)
    (hr : line.getLast? ≠ some '\r') (rest : List Char) :
    Text.lines (line ++ '\n' :: rest) = line :: Text.lines rest := by
  induction line with
  | nil => exact lines_newline rest
  | cons c line ih =>
    have hc : c ≠ '\n' := fun h => hn (h ▸ List.mem_cons_self)
    have hl : Text.lines (line ++ '\n' :: rest) = line :: Text.lines rest := by
      refine ih (fun h => hn (List.mem_cons_of_mem _ h)) fun h => hr ?_
      rw [List.getLast?_cons, h]
      rfl
    rw [List.cons_append, lines_cons hc, hl]
    rintro rfl h
    cases line with
    | nil => exact hr rfl
    | cons d line =>
      obtain rfl : d = '\n' := by simpa using h
      exact hn (by simp)

/-- Lines one after the other are read back. -/
theorem lines_joinLines {lines : List (List Char)}
    (h : ∀ line ∈ lines, '\n' ∉ line ∧ line.getLast? ≠ some '\r') :
    Text.lines (joinLines lines) = lines := by
  induction lines with
  | nil => rfl
  | cons line lines ih =>
    obtain ⟨hn, hr⟩ := h line List.mem_cons_self
    rw [joinLines_cons, lines_append_newline hn hr, ih fun l hl => h l (List.mem_cons_of_mem _ hl)]

/-! ## A source line by line -/

theorem masked_ofChars (s : List Char) : (ofChars s).masked = mask s := rfl

/-- What a line must be for a source to be looked at line by line. -/
structure IsPlainLine (line : List Char) : Prop where
  whole : IsWhole line
  no_feed : '\n' ∉ line
  no_return : line.getLast? ≠ some '\r'

instance (line : List Char) : Decidable (IsPlainLine line) :=
  decidable_of_iff (IsWhole line ∧ '\n' ∉ line ∧ line.getLast? ≠ some '\r')
    ⟨fun h => ⟨h.1, h.2.1, h.2.2⟩, fun h => ⟨h.whole, h.no_feed, h.no_return⟩⟩

/-- Lines with their masked views, numbered from the given number on. -/
def numbered (number : ℕ) : List (List Char) → List Line
  | [] => []
  | line :: rest => ⟨number, line, mask line⟩ :: numbered (number + 1) rest

theorem zipLines_eq_numbered (number : ℕ) (lines : List (List Char)) :
    zipLines number lines (lines.map mask) = numbered number lines := by
  induction lines generalizing number with
  | nil => rfl
  | cons line lines ih => simp [zipLines, numbered, ih]

theorem lines_join {lines : List (List Char)} (h : ∀ line ∈ lines, IsPlainLine line) :
    (ofChars (joinLines lines)).lines = numbered 1 lines := by
  have hm : ∀ l ∈ lines.map mask, '\n' ∉ l ∧ l.getLast? ≠ some '\r' := by
    intro l hl
    obtain ⟨line, hline, rfl⟩ := List.mem_map.1 hl
    exact ⟨fun hn => (h line hline).no_feed (mem_of_mem_mask hn (by decide)),
      fun hr => (h line hline).no_return (getLast?_of_mask hr)⟩
  show zipLines 1 (Text.lines (joinLines lines)) (Text.lines (mask (joinLines lines))) = _
  rw [mask_join fun l hl => (h l hl).whole, lines_joinLines hm,
    lines_joinLines fun l hl => ⟨(h l hl).no_feed, (h l hl).no_return⟩, zipLines_eq_numbered]

/-- The texts of the comments on a line. -/
def commentTexts (line : List Char) : List (List Char) := (tokens line).filterMap Token.comment?

/-- The comments on a line that leaves nothing open. -/
def Line.comments (l : Line) : List Comment :=
  (commentTexts l.raw).map fun text => ⟨l.number, text⟩

/-- As long as no line feed comes, the line stays. -/
theorem commentsFrom_append {number : ℕ} {ts : List Token}
    (h : ∀ t ∈ ts, '\n' ∉ t.written) (us : List Token) :
    commentsFrom number (ts ++ us) =
      (ts.filterMap Token.comment?).map (fun text => ⟨number, text⟩) ++ commentsFrom number us := by
  induction ts with
  | nil => rfl
  | cons t ts ih =>
    have ht : lineFeeds t.written = 0 := List.count_eq_zero.2 (h t List.mem_cons_self)
    rw [List.cons_append, commentsFrom, ht, Nat.add_zero,
      ih fun u hu => h u (List.mem_cons_of_mem _ hu)]
    cases hc : t.comment? with
    | none => simp [hc]
    | some text => simp [hc]

theorem comments_join {lines : List (List Char)} (h : ∀ line ∈ lines, IsPlainLine line) :
    (ofChars (joinLines lines)).comments = (numbered 1 lines).flatMap Line.comments := by
  have key : ∀ (ls : List (List Char)) (number : ℕ), (∀ l ∈ ls, '\n' ∉ l) →
      commentsFrom number (ls.flatMap fun l => tokens l ++ [.code '\n']) =
        (numbered number ls).flatMap Line.comments := by
    intro ls
    induction ls with
    | nil => intro number _; rfl
    | cons l ls ih =>
      intro number hl
      have ht : ∀ t ∈ tokens l, '\n' ∉ t.written := by
        intro t ht hn
        refine hl l List.mem_cons_self ?_
        rw [← flatMap_written_tokens l]
        exact List.mem_flatMap.2 ⟨t, ht, hn⟩
      rw [List.flatMap_cons, List.append_assoc, commentsFrom_append ht, numbered, List.flatMap_cons,
        ← ih _ fun k hk => hl k (List.mem_cons_of_mem _ hk)]
      rfl
  show commentsFrom 1 (tokens (joinLines lines)) = _
  rw [tokens_join fun l hl => (h l hl).whole]
  exact key lines 1 fun l hl => (h l hl).no_feed

end Acceptance.Source
