import Mathlib.Data.List.Basic
import Acceptance.Proofs.Source.Comment
import Acceptance.Proofs.Source.Offset
import Acceptance.Proofs.Source.Shift

/-!
# The masked view as a source

What is hidden is left as spaces and line feeds, which are code and open nothing. So the masked view
reads as the tokens that are not hidden, with blanks between them: it hides nothing more, has no
comment, and its lines start where those of the source do. The scan for blocks of variables looks at
the masked view alone.

Main results:

* `Reads.remasked`: the masked view, read token by token.
* `ofChars_mask`: the views of a masked view.
* `varBlocks_of_mask_eq`: sources with the same masked view have the same blocks of variables.
-/

namespace Acceptance.Source

open Text

/-! ## Tokens of a masked view -/

/-- What a token is read as in the masked view: a hidden one is spaces and line feeds. -/
def Token.remasked : Token → List Token
  | code c => [.code c]
  | name written => [.name written]
  | t => (hide t.written).map .code

theorem reads_hide {rest : List Char} {ts : List Token} (h : Reads rest ts) (s : List Char) :
    Reads (hide s ++ rest) ((hide s).map .code ++ ts) := by
  have hblank : ∀ c ∈ hide s, c = ' ' ∨ c = '\n' := fun c hc => (mem_hide hc).imp_right And.left
  generalize hide s = hidden at hblank
  induction hidden with
  | nil => exact h
  | cons c hidden ih =>
    have hc := hblank c List.mem_cons_self
    refine .code ?_ (ih fun d hd => hblank d (List.mem_cons_of_mem c hd))
    rcases hc with rfl | rfl <;> exact ⟨by decide, by decide, fun he => absurd he (by decide)⟩

/-- A sign at the start of the masked view is there in the source: what is hidden starts with a
space. -/
theorem Reads.head?_of_masked {s : List Char} {ts : List Token} (h : Reads s ts) {c : Char}
    (hc : c ≠ ' ') (hm : (ts.flatMap Token.masked).head? = some c) : s.head? = some c := by
  cases h with
  | done => cases hm
  | lineComment | blockComment | openBlockComment | literal | openLiteral =>
    exact absurd (Option.some.inj hm).symm hc
  | name | openName | code => exact hm

/-- The masked view, read token by token. -/
theorem Reads.remasked {s : List Char} {ts : List Token} (h : Reads s ts) :
    Reads (ts.flatMap Token.masked) (ts.flatMap Token.remasked) := by
  induction h with
  | done => exact .done
  | lineComment _ _ _ ih => exact reads_hide ih _
  | blockComment _ _ ih => exact reads_hide ih _
  | openBlockComment _ => exact reads_hide .done _
  | literal _ _ _ ih => exact reads_hide ih _
  | openLiteral _ => exact reads_hide .done _
  | name hq hn hc _ ih =>
    rw [List.flatMap_cons, List.flatMap_cons, Token.masked, List.cons_append, List.append_assoc]
    exact .name hq hn hc ih
  | openName hq hn =>
    rw [List.flatMap_singleton, List.flatMap_singleton]
    exact .openName hq hn
  | code hc h ih =>
    -- a slash alone stays alone: no slash or star comes to stand behind it
    have hnext {k : Char} (hk : k ≠ ' ') := mt (h.head?_of_masked hk)
    exact .code ⟨hc.1, hc.2.1, fun hs =>
      ⟨hnext (by decide) (hc.2.2 hs).1, hnext (by decide) (hc.2.2 hs).2⟩⟩ ih

theorem tokens_mask (s : List Char) : tokens (mask s) = (tokens s).flatMap Token.remasked :=
  (reads_tokens s).remasked.tokens_eq

theorem Token.masked_remasked (t : Token) : t.remasked.flatMap Token.masked = t.masked := by
  have hcode (u : List Char) : (u.map Token.code).flatMap Token.masked = u := by
    rw [List.flatMap_map]
    exact List.flatMap_singleton' u
  cases t with
  | code c => rfl
  | name written => exact List.append_nil written
  | lineComment | blockComment | literal => exact hcode _

theorem Token.comment?_remasked {t u : Token} (h : u ∈ t.remasked) : u.comment? = none := by
  cases t with
  | code | name =>
    obtain rfl := List.mem_singleton.1 h
    rfl
  | lineComment | blockComment | literal =>
    obtain ⟨c, -, rfl⟩ := List.mem_map.1 h
    rfl

/-! ## Views of a masked view -/

/-- There is nothing left to hide. -/
theorem mask_mask (s : List Char) : mask (mask s) = mask s := by
  rw [mask, tokens_mask, List.flatMap_assoc, mask]
  exact List.flatMap_congr fun t _ => t.masked_remasked

theorem commentsFrom_eq_nil {ts : List Token} (h : ∀ t ∈ ts, t.comment? = none) (line : ℕ) :
    commentsFrom line ts = [] := by
  induction ts generalizing line with
  | nil => rfl
  | cons t ts ih =>
    rw [commentsFrom_cons, h t List.mem_cons_self,
      ih fun u hu => h u (List.mem_cons_of_mem t hu)]
    rfl

theorem commentsOf_mask (s : List Char) : commentsOf (mask s) = [] := by
  rw [commentsOf, tokens_mask]
  refine commentsFrom_eq_nil (fun u hu => ?_) 1
  obtain ⟨t, -, hu⟩ := List.mem_flatMap.1 hu
  exact Token.comment?_remasked hu

/-- The views of a masked view: both are that view itself, and there are no comments. -/
theorem ofChars_mask (s : List Char) : ofChars (mask s) = ⟨mask s, mask s, []⟩ := by
  rw [ofChars, mask_mask, commentsOf_mask]

/-! ## Line starts -/

theorem startsBehind_hide (offset : ℕ) (s : List Char) :
    startsBehind offset (hide s) = startsBehind offset s := by
  have hspaces (n base : ℕ) : startsBehind base (List.replicate n ' ') = [] := by
    induction n generalizing base with
    | zero => rfl
    | succ n ih =>
      rw [List.replicate_succ, startsBehind, if_neg (by decide), ih]
      rfl
  induction s generalizing offset with
  | nil => rfl
  | cons c s ih =>
    have hsize : byteLength (hide [c]) = c.utf8Size := by
      rw [byteLength_hide, byteLength_cons, byteLength_nil, Nat.add_zero]
    rw [← List.singleton_append, hide_append, startsBehind_append, hsize, ih, List.singleton_append,
      startsBehind]
    refine congrArg (· ++ startsBehind (offset + c.utf8Size) s) ?_
    by_cases hc : c = '\n'
    · subst hc
      rfl
    · have hhide : hide [c] = List.replicate c.utf8Size ' ' := by simp [hide, hc]
      rw [hhide, hspaces, if_neg hc]

/-- The lines of the two views start at the same offsets. -/
theorem lineStarts_mask (s : List Char) : lineStarts (mask s) = lineStarts s := by
  have htoken (offset : ℕ) (t : Token) :
      startsBehind offset t.masked = startsBehind offset t.written ∧
        byteLength t.masked = byteLength t.written := by
    cases t with
    | code | name => exact ⟨rfl, rfl⟩
    | lineComment | blockComment | literal => exact ⟨startsBehind_hide offset _, byteLength_hide _⟩
  have key (ts : List Token) (offset : ℕ) :
      startsBehind offset (ts.flatMap Token.masked) =
        startsBehind offset (ts.flatMap Token.written) := by
    induction ts generalizing offset with
    | nil => rfl
    | cons t ts ih =>
      obtain ⟨hstarts, hlength⟩ := htoken offset t
      rw [List.flatMap_cons, List.flatMap_cons, startsBehind_append, startsBehind_append, hstarts,
        hlength, ih]
  rw [lineStarts, mask, key, flatMap_written_tokens, lineStarts]

/-! ## Blocks of variables -/

theorem varBlocksFrom_congr {ks ls : List Line} (h : List.Forall₂ Line.IsMaskedAs ks ls)
    (current : Option VarBlock) : varBlocksFrom current ks = varBlocksFrom current ls := by
  induction h generalizing current with
  | nil => rfl
  | cons hline _ ih =>
    rw [varBlocksFrom_cons, varBlocksFrom_cons, hline.2, hline.1]
    simp only [ih]

/-- Sources with the same masked view have the same blocks of variables. -/
theorem varBlocks_of_mask_eq {s t : List Char} (h : mask s = mask t) :
    (ofChars s).varBlocks = (ofChars t).varBlocks :=
  varBlocksFrom_congr (forall₂_lines h) none

end Acceptance.Source
