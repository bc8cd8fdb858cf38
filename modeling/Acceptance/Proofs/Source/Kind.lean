import Mathlib.Data.List.Basic
import Acceptance.Proofs.Source.Scan
import Acceptance.Proofs.Text.Blank

/-!
# Remarks and bare lines

Two kinds of lines leave nothing open whatever text they hold. A remark is a line comment behind
spaces: the masked line is blank, and its text is the comment. A bare line has no slash and no quote:
the masked line is the line.

Main results:

* `isPlainLine_remark`, `commentTexts_remark`: a remark and its comment.
* `isPlainLine_bare`, `mask_bare`: a bare line.
* `blockDelta_spaces`: spaces mean nothing to the scan of routines.
-/

namespace Acceptance.Source

open Text

/-! ## Remarks -/

/-- A line comment behind spaces. -/
def remark (indent : ℕ) (body : List Char) : List Char :=
  List.replicate indent ' ' ++ '/' :: '/' :: body

theorem reads_spaces {s : List Char} {ts : List Token} (h : Reads s ts) (n : ℕ) :
    Reads (List.replicate n ' ' ++ s) (List.replicate n (.code ' ') ++ ts) := by
  induction n with
  | zero => exact h
  | succ n ih => exact .code ⟨by decide, by decide, fun he => absurd he (by decide)⟩ ih

variable {indent : ℕ} {body : List Char}

theorem tokens_remark (hb : '\n' ∉ body) :
    tokens (remark indent body) = List.replicate indent (.code ' ') ++ [.lineComment body] := by
  have h : Reads ('/' :: '/' :: (body ++ [])) [.lineComment body] :=
    .lineComment hb (.inl rfl) .done
  rw [List.append_nil] at h
  exact (reads_spaces h indent).tokens_eq

theorem isWhole_remark (hb : '\n' ∉ body) : IsWhole (remark indent body) := by
  have h : Reads ('/' :: '/' :: (body ++ ['\n'])) [.lineComment body, .code '\n'] :=
    .lineComment hb (.inr rfl)
      (.code ⟨by decide, by decide, fun he => absurd he (by decide)⟩ .done)
  rw [IsWhole, tokens_remark hb]
  have := (reads_spaces h indent).tokens_eq
  rw [remark, List.append_assoc, List.append_assoc]
  exact this

theorem isPlainLine_remark (hb : '\n' ∉ body) (hr : body.getLast? ≠ some '\r') :
    IsPlainLine (remark indent body) where
  whole := isWhole_remark hb
  no_feed := by
    intro h
    rcases List.mem_append.1 h with h | h
    · exact absurd (List.eq_of_mem_replicate h) (by decide)
    · have : '\n' ∈ body := by simpa using h
      exact hb this
  no_return := by
    rw [remark, List.getLast?_append_of_ne_nil _ (by simp), List.getLast?_cons_cons,
      List.getLast?_cons]
    cases hl : body.getLast? with
    | none => exact fun h => absurd (Option.some.inj h) (by decide)
    | some c => rwa [hl] at hr

theorem commentTexts_remark (hb : '\n' ∉ body) (hr : body.getLast? ≠ some '\r') :
    commentTexts (remark indent body) = [body] := by
  have hcode : (List.replicate indent (Token.code ' ')).filterMap Token.comment? = [] :=
    List.filterMap_replicate_of_none rfl
  have hend : (body.reverse.dropWhile (· == '\r')).reverse = body := by
    rw [← List.head?_reverse] at hr
    cases hl : body.reverse with
    | nil => rw [← List.reverse_reverse body, hl]; rfl
    | cons c rest =>
      rw [hl] at hr
      have hc : ¬ (c == '\r') = true := fun h => hr (congrArg some (beq_iff_eq.1 h))
      rw [List.dropWhile_cons, if_neg hc, ← hl, List.reverse_reverse]
  rw [commentTexts, tokens_remark hb, List.filterMap_append, hcode]
  exact congrArg (fun text => [text]) hend

theorem mask_remark (hb : '\n' ∉ body) : ∃ n, mask (remark indent body) = List.replicate n ' ' := by
  refine ⟨(mask (remark indent body)).length, List.eq_replicate_iff.2 ⟨rfl, fun c hc => ?_⟩⟩
  by_contra hne
  rw [mask, tokens_remark hb, List.flatMap_append, List.flatMap_singleton] at hc
  rcases List.mem_append.1 hc with hc | hc
  · obtain ⟨t, ht, hc⟩ := List.mem_flatMap.1 hc
    rw [List.eq_of_mem_replicate ht] at hc
    exact hne (List.mem_singleton.1 hc)
  · obtain ⟨rfl, hm⟩ := (mem_hide hc).resolve_left hne
    have : '\n' ∈ body := by simpa [Token.written] using hm
    exact hb this

/-! ## Spaces -/

theorem skipBlanks_spaces (n : ℕ) : skipBlanks (List.replicate n ' ') = [] := by
  have := skipBlanks_replicate_append n []
  rwa [List.append_nil] at this

theorem blockDelta_spaces (n : ℕ) : blockDelta (List.replicate n ' ') = 0 := by
  have names : ∀ m : ℕ, withoutNamesFrom none (List.replicate m ' ') = List.replicate m ' ' := by
    intro m
    induction m with
    | zero => rfl
    | succ m ih =>
      rw [List.replicate_succ, withoutNamesFrom]
      exact congrArg (' ' :: ·) ih
  have quiet : ∀ (b : Option Char) (s : List Char), levelChange? b (' ' :: s) = none := by
    intro b s
    rw [levelChange?]
    split_ifs
    · rfl
    · rfl
  have none_found : ∀ (m offset : ℕ) (b : Option Char),
      matchesFrom levelChange? offset 0 b (List.replicate m ' ') = [] := by
    intro m
    induction m with
    | zero => intro offset b; rfl
    | succ m ih =>
      intro offset b
      rw [List.replicate_succ, matchesFrom, quiet]
      exact ih _ _
  rw [blockDelta, withoutNames, names, allMatches, none_found]
  rfl

/-! ## Bare lines -/

/-- Whether a text has neither a slash nor a quote of any kind, and stays on its line. -/
def IsBare (s : List Char) : Prop := ∀ c ∈ s, c ≠ '/' ∧ c ≠ '\'' ∧ c ≠ '"' ∧ c ≠ '\n'

variable {s : List Char}

theorem reads_bare (h : IsBare s) {rest : List Char} {ts : List Token} (hr : Reads rest ts) :
    Reads (s ++ rest) (s.map .code ++ ts) := by
  induction s with
  | nil => exact hr
  | cons c s ih =>
    obtain ⟨hs, hq, hd, -⟩ := h c List.mem_cons_self
    exact .code ⟨hq, hd, fun he => absurd he hs⟩ (ih fun d hd => h d (List.mem_cons_of_mem _ hd))

theorem tokens_bare (h : IsBare s) : tokens s = s.map .code := by
  have := (reads_bare h .done).tokens_eq
  rwa [List.append_nil, List.append_nil] at this

theorem isPlainLine_bare (h : IsBare s) (hr : s.getLast? ≠ some '\r') : IsPlainLine s where
  whole := by
    have hf : Reads ['\n'] [.code '\n'] :=
      .code ⟨by decide, by decide, fun he => absurd he (by decide)⟩ .done
    rw [IsWhole, (reads_bare h hf).tokens_eq, tokens_bare h]
  no_feed := fun hm => (h _ hm).2.2.2 rfl
  no_return := hr

theorem mask_bare (h : IsBare s) : mask s = s := by
  rw [mask, tokens_bare h, List.flatMap_map]
  exact List.flatMap_singleton' s

theorem commentTexts_bare (h : IsBare s) : commentTexts s = [] := by
  rw [commentTexts, tokens_bare h, List.filterMap_map]
  exact List.filterMap_eq_nil_iff.2 fun _ _ => rfl

end Acceptance.Source
