import Mathlib.Data.List.Basic
import Acceptance.Proofs.Source.Grammar
import Acceptance.Proofs.Source.Lines
import Acceptance.Proofs.Source.Seam
import Acceptance.Proofs.Text.Return
import Acceptance.Proofs.Text.Search

/-!
# Sources with carriage returns

The carriage returns that are added to a source belong to the tokens around them: to the comment,
literal or name that holds the line feed, to the line comment that ends before it, or to the code.
Those in code belong to the line ends of the masked view; the others are hidden and leave a space at
the end of a masked line, which is blank or ends with a space already.

Main results:

* `tokens_withReturns`: the tokens of the source with carriage returns.
* `lines_ofChars_withReturns`: its lines.
* `comments_withReturns`: its comments.
-/

namespace Acceptance.Source

open Text

/-! ## Tokens -/

/-- A token with a carriage return before each line feed in it. -/
def Token.withReturns : Token → Token
  | name written => name (Text.withReturns written)
  | blockComment body closed => blockComment (Text.withReturns body) closed
  | literal body closed => literal (Text.withReturns body) closed
  | t => t

/-- Tokens with a carriage return before each line feed. One at the end of a line comment belongs to
the comment. -/
def tokensWithReturns : List Token → List Token
  | [] => []
  | .lineComment body :: .code '\n' :: ts =>
    .lineComment (body ++ ['\r']) :: .code '\n' :: tokensWithReturns ts
  | .code '\n' :: ts => .code '\r' :: .code '\n' :: tokensWithReturns ts
  | t :: ts => t.withReturns :: tokensWithReturns ts

/-- What is being read, with a carriage return before each line feed in it. -/
def Mode.withReturns : Mode → Mode
  | code => code
  | name read => name (Text.withReturns read.reverse).reverse
  | lineComment read => lineComment read
  | blockComment read => blockComment (Text.withReturns read.reverse).reverse
  | literal read => literal (Text.withReturns read.reverse).reverse

theorem withReturns_reverse_cons {c : Char} (h : c ≠ '\n') (read : List Char) :
    (withReturns (c :: read).reverse).reverse = c :: (withReturns read.reverse).reverse := by
  rw [List.reverse_cons, withReturns_append, withReturns_cons h, withReturns_nil,
    List.reverse_append]
  rfl

theorem withReturns_reverse_newline (read : List Char) :
    (withReturns ('\n' :: read).reverse).reverse =
      '\n' :: '\r' :: (withReturns read.reverse).reverse := by
  rw [List.reverse_cons, withReturns_append, withReturns_newline, withReturns_nil,
    List.reverse_append]
  rfl

/-- A text with carriage returns starts with the same character, unless that is a line feed. -/
theorem withReturns_eq_cons {d : Char} (hd : d ≠ '\r') {s more : List Char}
    (h : withReturns s = d :: more) : ∃ rest, s = d :: rest := by
  cases s with
  | nil => cases h
  | cons c s =>
    by_cases hc : c = '\n'
    · subst hc
      rw [withReturns_newline] at h
      exact absurd (List.cons.inj h).1.symm hd
    · rw [withReturns_cons hc] at h
      exact ⟨s, by rw [(List.cons.inj h).1]⟩

theorem tokensWithReturns_name (written : List Char) (ts : List Token) :
    tokensWithReturns (.name written :: ts) =
      .name (Text.withReturns written) :: tokensWithReturns ts := by
  cases ts <;> rfl

theorem tokensWithReturns_blockComment (body : List Char) (closed : Bool) (ts : List Token) :
    tokensWithReturns (.blockComment body closed :: ts) =
      .blockComment (Text.withReturns body) closed :: tokensWithReturns ts := by
  cases ts <;> rfl

theorem tokensWithReturns_literal (body : List Char) (closed : Bool) (ts : List Token) :
    tokensWithReturns (.literal body closed :: ts) =
      .literal (Text.withReturns body) closed :: tokensWithReturns ts := by
  cases ts <;> rfl

theorem tokensWithReturns_code {c : Char} (h : c ≠ '\n') (ts : List Token) :
    tokensWithReturns (.code c :: ts) = .code c :: tokensWithReturns ts := by
  rw [tokensWithReturns]
  · rfl
  · rintro body more ⟨⟩
  · intro he
    exact absurd (Token.code.inj he) h

/-- The token that the end of the source completes. -/
theorem finish_withReturns (mode : Mode) :
    mode.withReturns.finish = tokensWithReturns mode.finish := by
  cases mode with
  | code => rfl
  | name read =>
    rw [Mode.withReturns, Mode.finish, Mode.finish, List.reverse_reverse, tokensWithReturns_name]
    rfl
  | lineComment read => rfl
  | blockComment read =>
    rw [Mode.withReturns, Mode.finish, Mode.finish, List.reverse_reverse,
      tokensWithReturns_blockComment]
    rfl
  | literal read =>
    rw [Mode.withReturns, Mode.finish, Mode.finish, List.reverse_reverse,
      tokensWithReturns_literal]
    rfl

/-! A character of code, the end of a name, and a character within a comment in signs or a literal
may be a line feed, so a carriage return may be read before it. -/

theorem tokensFrom_code_withReturns {c : Char} {rest : List Char} {ts : List Token}
    (hline : ∀ more, c = '/' → rest = '/' :: more → False)
    (hblock : ∀ more, c = '/' → rest = '*' :: more → False)
    (hliteral : c = '\'' → False) (hname : c = '"' → False)
    (h : tokensFrom .code (withReturns rest) = tokensWithReturns ts) :
    tokensFrom .code (withReturns (c :: rest)) = tokensWithReturns (.code c :: ts) := by
  by_cases hc : c = '\n'
  · subst hc
    rw [tokensWithReturns, ← h]
    simp [tokensFrom]
  · rw [withReturns_cons hc, tokensFrom, h, tokensWithReturns_code hc]
    · intro more hs he
      obtain ⟨r, hr⟩ := withReturns_eq_cons (by decide) he
      exact hline r hs hr
    · intro more hs he
      obtain ⟨r, hr⟩ := withReturns_eq_cons (by decide) he
      exact hblock r hs hr
    · exact hliteral
    · exact hname

theorem tokensFrom_name_withReturns {c : Char} (hc : (c == '"' || c == '\n') = true)
    (read rest : List Char) :
    tokensFrom (Mode.name read).withReturns (withReturns (c :: rest)) =
      .name (Text.withReturns (c :: read).reverse) :: tokensFrom .code (withReturns rest) := by
  rw [Mode.withReturns]
  by_cases hn : c = '\n'
  · subst hn
    have hr : ¬ (('\r' == '"') || ('\r' == '\n')) = true := by decide
    rw [withReturns_newline, tokensFrom, if_neg hr, tokensFrom, if_pos hc,
      ← withReturns_reverse_newline, List.reverse_reverse]
  · rw [withReturns_cons hn, tokensFrom, if_pos hc, ← withReturns_reverse_cons hn,
      List.reverse_reverse]

theorem tokensFrom_blockComment_withReturns {c : Char} {rest : List Char}
    (h : ∀ more, c = '*' → rest = '/' :: more → False) (read : List Char) :
    tokensFrom (Mode.blockComment read).withReturns (withReturns (c :: rest)) =
      tokensFrom (Mode.blockComment (c :: read)).withReturns (withReturns rest) := by
  rw [Mode.withReturns, Mode.withReturns]
  by_cases hn : c = '\n'
  · subst hn
    rw [withReturns_newline, withReturns_reverse_newline, tokensFrom, tokensFrom]
    · rintro more ⟨⟩
    · rintro more ⟨⟩
  · rw [withReturns_cons hn, withReturns_reverse_cons hn, tokensFrom]
    intro more hs he
    obtain ⟨r, hr⟩ := withReturns_eq_cons (by decide) he
    exact h r hs hr

theorem tokensFrom_literal_withReturns {c : Char} (h : c = '\'' → False)
    (read rest : List Char) :
    tokensFrom (Mode.literal read).withReturns (withReturns (c :: rest)) =
      tokensFrom (Mode.literal (c :: read)).withReturns (withReturns rest) := by
  rw [Mode.withReturns, Mode.withReturns]
  by_cases hn : c = '\n'
  · subst hn
    rw [withReturns_newline, withReturns_reverse_newline, tokensFrom, tokensFrom]
    · rintro more ⟨⟩
    · rintro ⟨⟩
    · rintro more ⟨⟩
    · rintro ⟨⟩
  · rw [withReturns_cons hn, withReturns_reverse_cons hn, tokensFrom]
    · exact fun _ hs _ => h hs
    · exact h

theorem tokensFrom_withReturns (mode : Mode) (s : List Char) :
    tokensFrom mode.withReturns (withReturns s) = tokensWithReturns (tokensFrom mode s) := by
  fun_induction tokensFrom mode s with
  | case1 mode =>
    rw [← finish_withReturns, withReturns_nil, tokensFrom]
  | case2 rest ih =>
    rw [← ih, withReturns_cons (by decide), withReturns_cons (by decide), Mode.withReturns,
      tokensFrom]
    rfl
  | case3 rest ih =>
    rw [← ih, withReturns_cons (by decide), withReturns_cons (by decide), Mode.withReturns,
      tokensFrom]
    rfl
  | case4 rest ih =>
    rw [← ih, withReturns_cons (by decide), Mode.withReturns, tokensFrom]
    rfl
  | case5 rest ih =>
    rw [← ih, withReturns_cons (by decide), Mode.withReturns, tokensFrom]
    rfl
  | case6 c rest hline hblock hliteral hname ih =>
    exact tokensFrom_code_withReturns hline hblock hliteral hname ih
  | case7 read c rest hc ih =>
    rw [tokensWithReturns_name, ← ih, tokensFrom_name_withReturns hc, Mode.withReturns]
  | case8 read c rest hc ih =>
    have hn : c ≠ '\n' := by
      rintro rfl
      exact hc (by decide)
    rw [← ih, Mode.withReturns, Mode.withReturns, withReturns_cons hn, tokensFrom, if_neg hc,
      withReturns_reverse_cons hn]
  | case9 read rest ih =>
    have hr : tokensFrom (.lineComment read) (withReturns ('\n' :: rest)) =
        .lineComment (read.reverse ++ ['\r']) :: .code '\n' ::
          tokensFrom .code (withReturns rest) := by
      simp [tokensFrom]
    rw [tokensWithReturns, ← ih]
    exact hr
  | case10 read c rest hc ih =>
    rw [← ih, Mode.withReturns, Mode.withReturns, withReturns_cons hc, tokensFrom]
    exact hc
  | case11 read rest ih =>
    rw [tokensWithReturns_blockComment, ← ih, Mode.withReturns, Mode.withReturns,
      withReturns_cons (by decide), withReturns_cons (by decide), tokensFrom, List.reverse_reverse]
  | case12 read c rest hc ih =>
    rw [← ih, tokensFrom_blockComment_withReturns hc]
  | case13 read rest ih =>
    rw [← ih, Mode.withReturns, Mode.withReturns, withReturns_cons (by decide),
      withReturns_cons (by decide), tokensFrom, withReturns_reverse_cons (by decide),
      withReturns_reverse_cons (by decide)]
  | case14 read rest hc ih =>
    rw [tokensWithReturns_literal, ← ih, Mode.withReturns, Mode.withReturns,
      withReturns_cons (by decide), tokensFrom, List.reverse_reverse]
    intro more he
    obtain ⟨r, hr⟩ := withReturns_eq_cons (by decide) he
    exact hc r hr
  | case15 read c rest _ hc ih =>
    rw [← ih, tokensFrom_literal_withReturns hc]

theorem tokens_withReturns (s : List Char) :
    tokens (withReturns s) = tokensWithReturns (tokens s) := tokensFrom_withReturns .code s

/-! ## Comments -/

/-- Line comments stop before the line feed. -/
theorem not_mem_of_lineComment {s : List Char} {ts : List Token} (h : Reads s ts) :
    ∀ body, .lineComment body ∈ ts → '\n' ∉ body := by
  induction h with
  | done => rintro body ⟨⟩
  | lineComment hb _ _ ih =>
    intro body hm
    rcases List.mem_cons.1 hm with hm | hm
    · cases hm
      exact hb
    · exact ih body hm
  | blockComment _ _ ih => exact fun body hm => ih body (List.mem_of_ne_of_mem (by simp) hm)
  | openBlockComment _ => rintro body hm; simp at hm
  | literal _ _ _ ih => exact fun body hm => ih body (List.mem_of_ne_of_mem (by simp) hm)
  | openLiteral _ => rintro body hm; simp at hm
  | name _ _ _ _ ih => exact fun body hm => ih body (List.mem_of_ne_of_mem (by simp) hm)
  | openName _ _ => rintro body hm; simp at hm
  | code _ _ ih => exact fun body hm => ih body (List.mem_of_ne_of_mem (by simp) hm)

/-- A comment with a carriage return before each line feed in it. -/
def Comment.withReturns (c : Comment) : Comment := { c with text := Text.withReturns c.text }

/-- A comment in signs, a literal and a name get the carriage returns of their text. -/
theorem Token.written_withReturns {t : Token} (hc : ∀ c, t ≠ .code c)
    (hl : ∀ body, t ≠ .lineComment body) :
    t.withReturns.written = Text.withReturns t.written := by
  cases t with
  | code c => exact absurd rfl (hc c)
  | name written => rfl
  | lineComment body => exact absurd rfl (hl body)
  | blockComment body closed =>
    cases closed with
    | true =>
      show _ = Text.withReturns ('/' :: '*' :: (body ++ ['*', '/']))
      rw [withReturns_cons (by decide), withReturns_cons (by decide), withReturns_append]
      rfl
    | false =>
      rw [written, withReturns_cons (by decide), withReturns_cons (by decide)]
      rfl
  | literal body closed =>
    cases closed with
    | true =>
      show _ = Text.withReturns ('\'' :: (body ++ ['\'']))
      rw [withReturns_cons (by decide), withReturns_append]
      rfl
    | false =>
      rw [written, withReturns_cons (by decide)]
      rfl

theorem Token.lineFeeds_withReturns (t : Token) :
    lineFeeds t.withReturns.written = lineFeeds t.written := by
  have hwritten (hc : ∀ c, t ≠ .code c) (hl : ∀ body, t ≠ .lineComment body) :
      lineFeeds t.withReturns.written = lineFeeds t.written := by
    rw [written_withReturns hc hl]
    exact count_withReturns t.written
  cases t with
  | code c => rfl
  | lineComment body => rfl
  | name written => exact hwritten (by simp) (by simp)
  | blockComment body closed => exact hwritten (by simp) (by simp)
  | literal body closed => exact hwritten (by simp) (by simp)

theorem not_mem_comment? {body text : List Char} (hb : '\n' ∉ body)
    (h : (Token.lineComment body).comment? = some text) : '\n' ∉ text := by
  rw [← Option.some.inj h, List.mem_reverse]
  exact fun hm => hb (List.mem_reverse.1 ((List.dropWhile_sublist _).mem hm))

theorem Token.comment?_withReturns {t : Token} (h : ∀ body, t = .lineComment body → '\n' ∉ body) :
    t.withReturns.comment? = t.comment?.map Text.withReturns := by
  cases t with
  | code c => rfl
  | name written => rfl
  | lineComment body =>
    have hn := not_mem_comment? (h body rfl) rfl
    exact congrArg some (withReturns_eq_self hn).symm
  | blockComment body closed => rfl
  | literal body closed => rfl

theorem commentsFrom_withReturns {ts : List Token}
    (h : ∀ body, .lineComment body ∈ ts → '\n' ∉ body) (line : ℕ) :
    commentsFrom line (tokensWithReturns ts) =
      (commentsFrom line ts).map Comment.withReturns := by
  have comment (t : Token) (h : ∀ body, t = .lineComment body → '\n' ∉ body) (line : ℕ) :
      (t.withReturns.comment?.map (Comment.mk line)).toList =
        (t.comment?.map (Comment.mk line)).toList.map Comment.withReturns := by
    rw [Token.comment?_withReturns h]
    cases t.comment? <;> rfl
  fun_induction tokensWithReturns ts generalizing line with
  | case1 => rfl
  | case2 body ts ih =>
    have hbody : ∀ b, Token.lineComment body = .lineComment b → '\n' ∉ b := by
      rintro b ⟨⟩
      exact h body List.mem_cons_self
    have hc : (Token.lineComment (body ++ ['\r'])).comment? =
        (Token.lineComment body).withReturns.comment? := by
      simp [Token.comment?, Token.withReturns]
    have hl : lineFeeds (Token.lineComment (body ++ ['\r'])).written =
        lineFeeds (Token.lineComment body).written := by
      simp [Token.written, lineFeeds]
    rw [commentsFrom_cons, commentsFrom_cons, hc, hl, commentsFrom_cons, commentsFrom_cons,
      comment _ hbody, ih fun b hb => h b (List.mem_cons_of_mem _ (List.mem_cons_of_mem _ hb)),
      List.map_append, List.map_append]
    rfl
  | case3 ts ih =>
    rw [commentsFrom_cons, commentsFrom_cons, commentsFrom_cons,
      ih fun b hb => h b (List.mem_cons_of_mem _ hb), List.map_append]
    rfl
  | case4 t ts h1 h2 ih =>
    rw [commentsFrom_cons, commentsFrom_cons, Token.lineFeeds_withReturns,
      comment _ fun b hb => h b (hb ▸ List.mem_cons_self),
      ih fun b hb => h b (List.mem_cons_of_mem _ hb), List.map_append]

theorem comments_withReturns (s : List Char) :
    (ofChars (withReturns s)).comments = (ofChars s).comments.map Comment.withReturns := by
  show commentsFrom 1 (tokens (withReturns s)) = _
  rw [tokens_withReturns]
  exact commentsFrom_withReturns (not_mem_of_lineComment (reads_tokens s)) 1

/-! ## The masked view -/

/-- `Padded before s t`: the text `t` is `s` with a carriage return before each line feed, or with a
space where the line is empty or ends with a space; `before` is the character before the text. -/
inductive Padded : Option Char → List Char → List Char → Prop
  | nil {before : Option Char} : Padded before [] []
  | char {before : Option Char} {c : Char} {s t : List Char} : c ≠ '\n' → Padded (some c) s t →
      Padded before (c :: s) (c :: t)
  | feed {before : Option Char} {s t : List Char} : Padded (some '\n') s t →
      Padded before ('\n' :: s) ('\r' :: '\n' :: t)
  | space {before : Option Char} {s t : List Char} : (∀ c ∈ before, c = ' ' ∨ c = '\n') →
      Padded (some '\n') s t → Padded before ('\n' :: s) (' ' :: '\n' :: t)

namespace Padded

variable {before : Option Char} {s t u v : List Char}

theorem widened (h : Padded before s t) : Widened s t := by
  induction h with
  | nil => exact .nil
  | char hc _ ih => exact .char hc ih
  | feed _ ih => exact .feed (by decide) ih
  | space _ _ ih => exact .feed (by decide) ih

theorem append (hs : Padded before s t) (hu : Padded (s.getLast?.or before) u v) :
    Padded before (s ++ u) (t ++ v) := by
  induction hs with
  | nil => exact hu
  | char hc _ ih => exact .char hc (ih (getLast?_cons_or .. ▸ hu))
  | feed _ ih => exact .feed (ih (getLast?_cons_or .. ▸ hu))
  | space hb _ ih => exact .space hb (ih (getLast?_cons_or .. ▸ hu))

/-- A text without line feeds stays as it is. -/
theorem self (h : '\n' ∉ s) (before : Option Char) : Padded before s s := by
  induction s generalizing before with
  | nil => exact .nil
  | cons c s ih =>
    exact .char (fun he => h (he ▸ List.mem_cons_self))
      (ih (fun hm => h (List.mem_cons_of_mem _ hm)) _)

theorem withReturns (s : List Char) (before : Option Char) :
    Padded before s (withReturns s) := by
  induction s generalizing before with
  | nil => exact .nil
  | cons c s ih =>
    by_cases hc : c = '\n'
    · subst hc
      exact .feed (ih _)
    · rw [withReturns_cons hc]
      exact .char hc (ih _)

/-- A character that is hidden leaves spaces. -/
theorem hide_char {c : Char} (hc : c ≠ '\n') (before : Option Char)
    (h : ∀ before : Option Char, (∀ d ∈ before, d = ' ' ∨ d = '\n') →
      Padded before (hide s) (hide t)) :
    Padded before (hide (c :: s)) (hide (c :: t)) := by
  have hcons (s : List Char) : hide (c :: s) = List.replicate c.utf8Size ' ' ++ hide s := by
    simp [hide, hc]
  have hspaces : '\n' ∉ List.replicate c.utf8Size ' ' := fun hm =>
    absurd (List.eq_of_mem_replicate hm) (by decide)
  have hlast : (List.replicate c.utf8Size ' ').getLast? = some ' ' := by
    rw [List.getLast?_replicate, if_neg (Char.utf8Size_pos c).ne']
  rw [hcons, hcons]
  refine (self hspaces before).append (h _ ?_)
  rw [hlast]
  rintro d ⟨⟩
  exact .inl rfl

/-- Hidden carriage returns stand behind spaces or at the start of a line. -/
theorem hide_withReturns (s : List Char) {before : Option Char}
    (hb : ∀ c ∈ before, c = ' ' ∨ c = '\n') :
    Padded before (hide s) (hide (Text.withReturns s)) := by
  induction s generalizing before with
  | nil => exact .nil
  | cons c s ih =>
    by_cases hc : c = '\n'
    · subst hc
      refine .space hb (ih ?_)
      rintro c ⟨⟩
      exact .inr rfl
    · rw [withReturns_cons hc]
      exact hide_char hc before fun _ hb => ih hb

theorem hide_written {t : Token} {c : Char} {s : List Char} (hw : t.written = c :: s)
    (hc : c ≠ '\n') (ht : t.withReturns.written = Text.withReturns t.written)
    (before : Option Char) : Padded before (hide t.written) (hide t.withReturns.written) := by
  rw [ht, hw, withReturns_cons hc]
  exact hide_char hc before fun _ hb => hide_withReturns s hb

/-- A hidden line comment is a run of spaces. -/
theorem not_mem_hide_lineComment {body : List Char} (hb : '\n' ∉ body) :
    '\n' ∉ hide ('/' :: '/' :: body) := by
  intro hm
  rcases mem_hide hm with he | ⟨-, hm⟩
  · exact absurd he (by decide)
  · exact hb (by simpa using hm)

theorem masked {t : Token} (ht : t ≠ .code '\n') (hl : ∀ body, t = .lineComment body → '\n' ∉ body)
    (before : Option Char) : Padded before t.masked t.withReturns.masked := by
  cases t with
  | code c => exact .char (fun he => ht (congrArg Token.code he)) .nil
  | name written => exact withReturns written before
  | lineComment body => exact self (not_mem_hide_lineComment (hl body rfl)) before
  | blockComment body closed =>
    cases closed <;>
      exact hide_written rfl (by decide) (Token.written_withReturns (by simp) (by simp)) before
  | literal body closed =>
    cases closed <;>
      exact hide_written rfl (by decide) (Token.written_withReturns (by simp) (by simp)) before

theorem tokens {ts : List Token} (h : ∀ body, .lineComment body ∈ ts → '\n' ∉ body)
    (before : Option Char) :
    Padded before (ts.flatMap Token.masked) ((tokensWithReturns ts).flatMap Token.masked) := by
  fun_induction tokensWithReturns ts generalizing before with
  | case1 => exact .nil
  | case2 body ts ih =>
    have hbody := not_mem_hide_lineComment (h body List.mem_cons_self)
    have ih := ih (fun b hb => h b (List.mem_cons_of_mem _ (List.mem_cons_of_mem _ hb)))
      (some '\n')
    -- the carriage return is hidden with the comment before it
    have hreturn : hide ('/' :: '/' :: (body ++ ['\r'])) = hide ('/' :: '/' :: body) ++ [' '] := by
      rw [← List.cons_append, ← List.cons_append, hide_append]
      rfl
    have hlast : ∀ c ∈ (hide ('/' :: '/' :: body)).getLast?.or before, c = ' ' ∨ c = '\n' := by
      intro c hc
      have hne : (hide ('/' :: '/' :: body)).getLast? ≠ none := by
        rw [Ne, List.getLast?_eq_none_iff]
        exact List.cons_ne_nil ' ' _
      obtain ⟨d, hd⟩ := Option.ne_none_iff_exists'.1 hne
      rw [hd] at hc
      cases hc
      exact (mem_hide (List.mem_of_getLast? hd)).imp_right And.left
    have := (self hbody before).append (.space hlast ih)
    simpa [List.flatMap_cons, Token.masked, Token.written, hreturn] using this
  | case3 ts ih => exact .feed (ih (fun b hb => h b (List.mem_cons_of_mem _ hb)) _)
  | case4 t ts h1 h2 ih =>
    rw [List.flatMap_cons, List.flatMap_cons]
    refine (masked h2 (fun b hb => h b (hb ▸ List.mem_cons_self)) before).append ?_
    exact ih (fun b hb => h b (List.mem_cons_of_mem _ hb)) _

end Padded

theorem padded_mask (s : List Char) : Padded none (mask s) (mask (withReturns s)) := by
  rw [mask, mask, tokens_withReturns]
  exact Padded.tokens (not_mem_of_lineComment (reads_tokens s)) none

/-! ## Lines -/

/-- Whether a text is empty or ends with a space or a line feed. -/
def EndsBlank (m : List Char) : Prop := ∀ c ∈ m.getLast?, c = ' ' ∨ c = '\n'

/-- Whether a masked line is another one, maybe with a space behind it where that one is empty or
ends with a space. -/
def IsPadding (m n : List Char) : Prop := n = m ∨ n = m ++ [' '] ∧ EndsBlank m

/-- Whether a piece of a masked line is another one, maybe with a space behind it where a space or a
line end stands before that space. -/
def IsPaddingBehind (before : Option Char) (m n : List Char) : Prop :=
  n = m ∨ n = m ++ [' '] ∧ ∀ c ∈ m.getLast?.or before, c = ' ' ∨ c = '\n'

theorem IsPaddingBehind.isPadding {before : Option Char} {m n : List Char}
    (h : IsPaddingBehind before m n) : IsPadding m n := by
  refine h.imp_right fun h => ⟨h.1, fun c hc => h.2 c ?_⟩
  rw [Option.mem_def.1 hc]
  rfl

/-- The first lines of two texts side by side go on a line that is begun before them. -/
theorem Padded.lines {before : Option Char} {s t : List Char} (h : Padded before s t)
    (hs : '\r' ∉ s) :
    List.Forall₂ IsPadding (Text.lines s) (Text.lines t) ∧
      ∀ m ∈ (Text.lines s).head?, ∀ n ∈ (Text.lines t).head?, IsPaddingBehind before m n := by
  induction h with
  | nil => exact ⟨.nil, by rintro m ⟨⟩⟩
  | @char before c s t hc h ih =>
    obtain ⟨hall, hfirst⟩ := ih fun hm => hs (List.mem_cons_of_mem _ hm)
    have hr : c ≠ '\r' := fun he => hs (he ▸ List.mem_cons_self)
    rw [lines_cons hc fun he => absurd he hr, lines_cons hc fun he => absurd he hr]
    generalize Text.lines s = ms at hall hfirst
    generalize Text.lines t = ns at hall hfirst
    cases hall with
    | nil => exact ⟨.cons (.inl rfl) .nil, by rintro m ⟨⟩ n ⟨⟩; exact .inl rfl⟩
    | @cons m n ms ns hmn hall =>
      have hfirst : IsPaddingBehind before (c :: m) (c :: n) := by
        rcases hfirst m rfl n rfl with rfl | ⟨rfl, hlast⟩
        · exact .inl rfl
        · exact .inr ⟨rfl, getLast?_cons_or .. ▸ hlast⟩
      exact ⟨.cons hfirst.isPadding hall, by rintro _ ⟨⟩ _ ⟨⟩; exact hfirst⟩
  | feed h ih =>
    rw [lines_newline, lines_return_newline]
    exact ⟨.cons (.inl rfl) (ih fun hm => hs (List.mem_cons_of_mem _ hm)).1,
      by rintro m ⟨⟩ n ⟨⟩; exact .inl rfl⟩
  | @space before s t hb h ih =>
    have hspace : Text.lines (' ' :: '\n' :: t) = [' '] :: Text.lines t := by
      rw [lines_cons (by decide) fun he => absurd he (by decide), lines_newline]
    have hfirst : IsPaddingBehind before [] [' '] := .inr ⟨rfl, hb⟩
    rw [lines_newline, hspace]
    exact ⟨.cons hfirst.isPadding (ih fun hm => hs (List.mem_cons_of_mem _ hm)).1,
      by rintro m ⟨⟩ n ⟨⟩; exact hfirst⟩

/-- A line of a source and the one of the source with carriage returns: written in the same way, and
masked with at most one space more behind a space. -/
structure Line.IsPaddedAs (l k : Line) : Prop where
  number : k.number = l.number
  raw : k.raw = l.raw
  masked : IsPadding l.masked k.masked

/-- The lines of a source with carriage returns. -/
theorem lines_ofChars_withReturns {s : List Char} (h : '\r' ∉ s) :
    List.Forall₂ Line.IsPaddedAs (ofChars s).lines (ofChars (withReturns s)).lines := by
  have hmask : '\r' ∉ mask s := fun hm => h (mem_of_mem_mask hm (by decide))
  have hraw : Text.lines (withReturns s) = Text.lines s := Text.lines_withReturns h
  show List.Forall₂ _ (zipLines 1 (Text.lines s) (Text.lines (mask s)))
    (zipLines 1 (Text.lines (withReturns s)) (Text.lines (mask (withReturns s))))
  have hraws : List.Forall₂ Eq (Text.lines s) (Text.lines (withReturns s)) :=
    hraw ▸ List.forall₂_refl _
  exact forall₂_zipLines (fun _ _ _ _ _ he hm => ⟨rfl, he.symm, hm⟩) hraws
    ((padded_mask s).lines hmask).1 1

end Acceptance.Source
