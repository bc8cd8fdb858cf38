import Mathlib.Data.List.Basic
import Mathlib.Data.List.Infix
import Acceptance.Source.Token

/-!
# The grammar of tokens

Which texts are which tokens, said without a machine that reads them: a line comment holds no line
feed and stops before one, a block comment holds no closing sign, a literal holds its quotes in
pairs, a name holds neither a double quote nor a line feed. What nothing closes reaches to the end
of the source. A character of code opens none of these.

Main results:

* `reads_tokens`: every source can be read, and `tokens` reads it.
* `reads_iff`: there is no other way to read it.
-/

namespace Acceptance.Source

/-! ## Specification -/

/-- A text between two quotes: quotes in it come in pairs. -/
inductive Quotable : List Char → Prop
  | nil : Quotable []
  | plain {c : Char} {s : List Char} : c ≠ '\'' → Quotable s → Quotable (c :: s)
  | pair {s : List Char} : Quotable s → Quotable ('\'' :: '\'' :: s)

/-- The sign that closes a block comment. -/
def closingSign : List Char := ['*', '/']

/-- Whether a character of code stands here: neither a quote of any kind nor the first half of a
sign that opens a comment. -/
def StandsAlone (c : Char) (rest : List Char) : Prop :=
  c ≠ '\'' ∧ c ≠ '"' ∧ (c = '/' → rest.head? ≠ some '/' ∧ rest.head? ≠ some '*')

/-- `Reads s ts`: the text `s`, taken from left to right, is the tokens `ts`. -/
inductive Reads : List Char → List Token → Prop
  | done : Reads [] []
  | lineComment {body rest : List Char} {ts : List Token} : '\n' ∉ body →
      (rest = [] ∨ rest.head? = some '\n') → Reads rest ts →
      Reads ('/' :: '/' :: (body ++ rest)) (.lineComment body :: ts)
  | blockComment {body rest : List Char} {ts : List Token} : ¬ closingSign <:+: body →
      Reads rest ts →
      Reads ('/' :: '*' :: (body ++ (closingSign ++ rest))) (.blockComment body true :: ts)
  | openBlockComment {body : List Char} : ¬ closingSign <:+: body →
      Reads ('/' :: '*' :: body) [.blockComment body false]
  | literal {body rest : List Char} {ts : List Token} : Quotable body →
      rest.head? ≠ some '\'' → Reads rest ts →
      Reads ('\'' :: (body ++ '\'' :: rest)) (.literal body true :: ts)
  | openLiteral {body : List Char} : Quotable body → Reads ('\'' :: body) [.literal body false]
  | name {body rest : List Char} {close : Char} {ts : List Token} : '"' ∉ body → '\n' ∉ body →
      (close = '"' ∨ close = '\n') → Reads rest ts →
      Reads ('"' :: (body ++ close :: rest)) (.name ('"' :: (body ++ [close])) :: ts)
  | openName {body : List Char} : '"' ∉ body → '\n' ∉ body →
      Reads ('"' :: body) [.name ('"' :: body)]
  | code {c : Char} {rest : List Char} {ts : List Token} : StandsAlone c rest → Reads rest ts →
      Reads (c :: rest) (.code c :: ts)

/-! ## The machine on one token -/

attribute [local simp] tokensFrom

theorem tokensFrom_lineComment {body rest : List Char} (hb : '\n' ∉ body)
    (hr : rest = [] ∨ rest.head? = some '\n') (read : List Char) :
    tokensFrom (.lineComment read) (body ++ rest) =
      .lineComment (read.reverse ++ body) :: tokensFrom .code rest := by
  induction body generalizing read with
  | nil =>
    rcases hr with rfl | hr
    · simp [Mode.finish]
    · obtain ⟨more, rfl⟩ := List.head?_eq_some_iff.1 hr
      simp
  | cons c body ih =>
    have hc : c ≠ '\n' := fun h => hb (h ▸ List.mem_cons_self)
    rw [List.cons_append, tokensFrom]
    · rw [ih (fun h => hb (List.mem_cons_of_mem _ h))]
      simp
    · exact hc

theorem tokensFrom_blockComment {body : List Char} (hb : ¬ closingSign <:+: body)
    (rest read : List Char) :
    tokensFrom (.blockComment read) (body ++ (closingSign ++ rest)) =
      .blockComment (read.reverse ++ body) true :: tokensFrom .code rest := by
  induction body generalizing read with
  | nil => simp [closingSign]
  | cons c body ih =>
    have hb' : ¬ closingSign <:+: body := fun h => hb (h.trans (List.suffix_cons c body).isInfix)
    have hne : ∀ more, c = '*' → body ++ (closingSign ++ rest) = '/' :: more → False := by
      intro more hc hm
      cases body with
      | nil => simp [closingSign] at hm
      | cons d body =>
        obtain rfl : d = '/' := by simpa using (List.cons.inj hm).1
        exact hb ⟨[], body, by simp [closingSign, hc]⟩
    rw [List.cons_append, tokensFrom]
    · rw [ih hb']
      simp
    · exact hne

theorem tokensFrom_openBlockComment {body : List Char} (hb : ¬ closingSign <:+: body)
    (read : List Char) :
    tokensFrom (.blockComment read) body = [.blockComment (read.reverse ++ body) false] := by
  induction body generalizing read with
  | nil => simp [Mode.finish]
  | cons c body ih =>
    have hb' : ¬ closingSign <:+: body := fun h => hb (h.trans (List.suffix_cons c body).isInfix)
    rw [tokensFrom]
    · rw [ih hb']
      simp
    · rintro more rfl rfl
      exact hb ⟨[], more, by simp [closingSign]⟩

theorem tokensFrom_literal {body : List Char} (hb : Quotable body) {rest : List Char}
    (hr : rest.head? ≠ some '\'') (read : List Char) :
    tokensFrom (.literal read) (body ++ '\'' :: rest) =
      .literal (read.reverse ++ body) true :: tokensFrom .code rest := by
  induction hb generalizing read with
  | nil =>
    rw [List.nil_append, tokensFrom]
    · simp
    · rintro more rfl
      simp at hr
  | @plain c s hc _ ih =>
    rw [List.cons_append, tokensFrom]
    · rw [ih]
      simp
    · intro more h
      exact absurd h hc
    · exact hc
  | pair _ ih =>
    rw [List.cons_append, List.cons_append, tokensFrom, ih]
    simp

theorem tokensFrom_openLiteral {body : List Char} (hb : Quotable body) (read : List Char) :
    tokensFrom (.literal read) body = [.literal (read.reverse ++ body) false] := by
  induction hb generalizing read with
  | nil => simp [Mode.finish]
  | @plain c s hc _ ih =>
    rw [tokensFrom]
    · rw [ih]
      simp
    · intro more h
      exact absurd h hc
    · exact hc
  | pair _ ih =>
    rw [tokensFrom, ih]
    simp

theorem tokensFrom_name {body : List Char} (hq : '"' ∉ body) (hn : '\n' ∉ body) {close : Char}
    (hc : close = '"' ∨ close = '\n') (rest read : List Char) :
    tokensFrom (.name read) (body ++ close :: rest) =
      .name (read.reverse ++ (body ++ [close])) :: tokensFrom .code rest := by
  induction body generalizing read with
  | nil => rcases hc with rfl | rfl <;> simp
  | cons c body ih =>
    have hc' : ¬ (c = '"' ∨ c = '\n') := by
      rintro (rfl | rfl)
      · exact hq List.mem_cons_self
      · exact hn List.mem_cons_self
    rw [List.cons_append, tokensFrom, if_neg (by simpa using hc'),
      ih (fun h => hq (List.mem_cons_of_mem _ h)) (fun h => hn (List.mem_cons_of_mem _ h))]
    simp

theorem tokensFrom_openName {body : List Char} (hq : '"' ∉ body) (hn : '\n' ∉ body)
    (read : List Char) :
    tokensFrom (.name read) body = [.name (read.reverse ++ body)] := by
  induction body generalizing read with
  | nil => simp [Mode.finish]
  | cons c body ih =>
    have hc : ¬ (c = '"' ∨ c = '\n') := by
      rintro (rfl | rfl)
      · exact hq List.mem_cons_self
      · exact hn List.mem_cons_self
    rw [tokensFrom, if_neg (by simpa using hc),
      ih (fun h => hq (List.mem_cons_of_mem _ h)) (fun h => hn (List.mem_cons_of_mem _ h))]
    simp

theorem tokensFrom_code {c : Char} {rest : List Char} (h : StandsAlone c rest) :
    tokensFrom .code (c :: rest) = .code c :: tokensFrom .code rest := by
  obtain ⟨hq, hd, hs⟩ := h
  rw [tokensFrom]
  · rintro more rfl rfl
    exact (hs rfl).1 rfl
  · rintro more rfl rfl
    exact (hs rfl).2 rfl
  · exact hq
  · exact hd

/-! ## No other reading -/

theorem Reads.tokens_eq {s : List Char} {ts : List Token} (h : Reads s ts) : tokens s = ts := by
  unfold tokens
  induction h with
  | done => rfl
  | lineComment hb hr _ ih => rw [tokensFrom, tokensFrom_lineComment hb hr, ih]; rfl
  | blockComment hb _ ih => rw [tokensFrom, tokensFrom_blockComment hb, ih]; rfl
  | openBlockComment hb => rw [tokensFrom, tokensFrom_openBlockComment hb]; rfl
  | literal hb hr _ ih => rw [tokensFrom, tokensFrom_literal hb hr, ih]; rfl
  | openLiteral hb => rw [tokensFrom, tokensFrom_openLiteral hb]; rfl
  | name hq hn hc _ ih => rw [tokensFrom, tokensFrom_name hq hn hc, ih]; rfl
  | openName hq hn => rw [tokensFrom, tokensFrom_openName hq hn]; rfl
  | code h _ ih => rw [tokensFrom_code h, ih]

/-! ## Every source can be read -/

/-- A text after an opening quote is a literal that the next single quote closes, or one that is
open at the end. -/
theorem exists_quotable (s : List Char) :
    Quotable s ∨ ∃ body rest, s = body ++ '\'' :: rest ∧ Quotable body ∧ rest.head? ≠ some '\'' := by
  -- two characters may go at once, so the induction is on the length
  induction hn : s.length using Nat.strong_induction_on generalizing s with
  | _ n ih =>
    subst hn
    match s with
    | [] => exact .inl .nil
    | c :: rest =>
      by_cases hc : c = '\''
      · subst hc
        by_cases hr : rest.head? = some '\''
        · obtain ⟨more, rfl⟩ := List.head?_eq_some_iff.1 hr
          rcases ih more.length (by rw [List.length_cons, List.length_cons]; omega) more rfl with h | ⟨body, tail, rfl, hb, ht⟩
          · exact .inl (.pair h)
          · exact .inr ⟨'\'' :: '\'' :: body, tail, rfl, .pair hb, ht⟩
        · exact .inr ⟨[], rest, rfl, .nil, hr⟩
      · rcases ih rest.length (by simp) rest rfl with h | ⟨body, tail, rfl, hb, ht⟩
        · exact .inl (.plain hc h)
        · exact .inr ⟨c :: body, tail, rfl, .plain hc hb, ht⟩

/-- The first closing sign of a text, if there is one, has none before it. -/
theorem exists_closingSign (s : List Char) :
    ¬ closingSign <:+: s ∨
      ∃ body rest, s = body ++ (closingSign ++ rest) ∧ ¬ closingSign <:+: body := by
  induction s with
  | nil => exact .inl (by simp [closingSign])
  | cons c s ih =>
    by_cases hp : closingSign <+: c :: s
    · obtain ⟨rest, hr⟩ := hp
      exact .inr ⟨[], rest, hr.symm, by simp [closingSign]⟩
    · rcases ih with h | ⟨body, rest, rfl, hb⟩
      · exact .inl fun hi => (List.infix_cons_iff.1 hi).elim hp h
      · refine .inr ⟨c :: body, rest, rfl, fun hi => ?_⟩
        rcases List.infix_cons_iff.1 hi with h | h
        · obtain ⟨t, ht⟩ := h
          exact hp ⟨t ++ (closingSign ++ rest), by rw [← List.append_assoc, ht]; rfl⟩
        · exact hb h

/-- The first character of a text that has a property, if there is one, has none before it. -/
theorem exists_first (p : Char → Bool) (s : List Char) :
    (∀ c ∈ s, p c = false) ∨
      ∃ body c rest, s = body ++ c :: rest ∧ (∀ d ∈ body, p d = false) ∧ p c = true := by
  induction s with
  | nil => exact .inl (by simp)
  | cons c s ih =>
    by_cases hc : p c = true
    · exact .inr ⟨[], c, s, rfl, by simp, hc⟩
    · have hc : p c = false := by simpa using hc
      rcases ih with h | ⟨body, d, rest, rfl, hb, hd⟩
      · exact .inl fun d hm => (List.mem_cons.1 hm).elim (fun e => e ▸ hc) (h d)
      · exact .inr ⟨c :: body, d, rest, rfl,
          fun d hm => (List.mem_cons.1 hm).elim (fun e => e ▸ hc) (hb d), hd⟩

theorem exists_reads (s : List Char) : ∃ ts, Reads s ts := by
  induction hn : s.length using Nat.strong_induction_on generalizing s with
  | _ n ih =>
    subst hn
    -- what is left behind a token is shorter
    have next : ∀ rest : List Char, rest.length < s.length → ∃ ts, Reads rest ts :=
      fun rest h => ih rest.length h rest rfl
    match s with
    | [] => exact ⟨_, .done⟩
    | c :: s =>
      by_cases hq : c = '\''
      · subst hq
        rcases exists_quotable s with h | ⟨body, rest, rfl, hb, hr⟩
        · exact ⟨_, .openLiteral h⟩
        · obtain ⟨ts, ht⟩ := next rest (by simp; omega)
          exact ⟨_, .literal hb hr ht⟩
      by_cases hd : c = '"'
      · subst hd
        rcases exists_first (fun c => c == '"' || c == '\n') s with h | ⟨body, c, rest, rfl, hb, hc⟩
        · exact ⟨_, .openName (fun hm => by simpa using h _ hm) (fun hm => by simpa using h _ hm)⟩
        · obtain ⟨ts, ht⟩ := next rest (by simp; omega)
          exact ⟨_, .name (fun hm => by simpa using hb _ hm) (fun hm => by simpa using hb _ hm)
            (by simpa using hc) ht⟩
      by_cases hl : c = '/' ∧ s.head? = some '/'
      · obtain ⟨rfl, hs⟩ := hl
        obtain ⟨s, rfl⟩ := List.head?_eq_some_iff.1 hs
        rcases exists_first (· == '\n') s with h | ⟨body, c, rest, rfl, hb, hc⟩
        · have ht : Reads ('/' :: '/' :: (s ++ [])) [.lineComment s] :=
            .lineComment (fun hm => by simpa using h _ hm) (.inl rfl) .done
          rw [List.append_nil] at ht
          exact ⟨_, ht⟩
        · obtain rfl : c = '\n' := by simpa using hc
          obtain ⟨ts, ht⟩ := next ('\n' :: rest) (by simp; omega)
          exact ⟨_, .lineComment (fun hm => by simpa using hb _ hm) (.inr rfl) ht⟩
      by_cases hb : c = '/' ∧ s.head? = some '*'
      · obtain ⟨rfl, hs⟩ := hb
        obtain ⟨s, rfl⟩ := List.head?_eq_some_iff.1 hs
        rcases exists_closingSign s with h | ⟨body, rest, rfl, hb⟩
        · exact ⟨_, .openBlockComment h⟩
        · obtain ⟨ts, ht⟩ := next rest (by simp; omega)
          exact ⟨_, .blockComment hb ht⟩
      · obtain ⟨ts, ht⟩ := next s (by simp)
        exact ⟨_, .code ⟨hq, hd, fun h => ⟨fun h' => hl ⟨h, h'⟩, fun h' => hb ⟨h, h'⟩⟩⟩ ht⟩

theorem reads_tokens (s : List Char) : Reads s (tokens s) := by
  obtain ⟨ts, h⟩ := exists_reads s
  exact h.tokens_eq ▸ h

theorem reads_iff {s : List Char} {ts : List Token} : Reads s ts ↔ tokens s = ts :=
  ⟨Reads.tokens_eq, fun h => h ▸ reads_tokens s⟩

end Acceptance.Source
