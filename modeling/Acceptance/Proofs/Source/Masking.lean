import Mathlib.Data.List.Basic
import Acceptance.Proofs.Source.Grammar
import Acceptance.Source.Pass

/-!
# The masked view, byte by byte

The two views of a source are compared in their UTF-8 encoding. A token that is hidden keeps its
line feeds and has a space in place of every other byte; all other tokens keep their bytes. A
comment stands on the line of its opening sign.

Main results:

* `utf8_hide`: hiding a text replaces its bytes one by one.
* `lineFeedFlags_mask`: both views have their line feeds at the same offsets.
* `comments_eq`: a comment stands on the line of its opening sign.
-/

namespace Acceptance

open Text

/-! ## UTF-8 -/

namespace Text

theorem utf8_flatMap {α : Type} (f : α → List Char) (l : List α) :
    utf8 (l.flatMap f) = l.flatMap fun a => utf8 (f a) := by
  simp [utf8, List.flatMap_assoc]

theorem length_utf8 (s : List Char) : (utf8 s).length = byteLength s := by
  induction s with
  | nil => rfl
  | cons c s ih => simp [ih]

/-- The line feed has its byte for itself: no longer encoding holds it. -/
theorem eq_lineFeed_of_mem {c : Char} (h : lineFeedByte ∈ String.utf8EncodeChar c) : c = '\n' := by
  have hm : 10 ∈ (String.utf8EncodeChar c).map UInt8.toNat := List.mem_map.2 ⟨_, h, rfl⟩
  have hv : c.val.toNat = 10 := by
    have hc := c.val.toNat_lt
    -- bytes of longer encodings are at least 128
    simp only [String.utf8EncodeChar] at hm
    split_ifs at hm <;>
      simp only [List.map_cons, List.map_nil, List.mem_cons, List.not_mem_nil, or_false,
        UInt8.toNat_ofNat'] at hm <;>
      omega
  exact Char.ext (UInt32.toNat_inj.1 hv)

end Text

namespace Source

/-! ## Specification -/

namespace Token

/-- The bytes of a token in the masked view. -/
def maskedBytes : Token → List UInt8
  | code c => utf8 [c]
  | name written => utf8 written
  | t => (utf8 t.written).map hiddenByte

end Token

/-! ## Masking -/

theorem utf8_replicate_space (n : ℕ) : utf8 (List.replicate n ' ') = List.replicate n spaceByte := by
  induction n with
  | zero => rfl
  | succ n ih =>
    rw [List.replicate_succ, utf8_cons, ih]
    rfl

/-- Hiding one character hides its bytes. -/
theorem utf8_hide_singleton (c : Char) :
    utf8 (hide [c]) = (String.utf8EncodeChar c).map hiddenByte := by
  by_cases hc : c = '\n'
  · subst hc
    decide
  · have hb : ∀ b ∈ String.utf8EncodeChar c, hiddenByte b = spaceByte := by
      intro b hb
      rw [hiddenByte, if_neg]
      rintro rfl
      exact hc (eq_lineFeed_of_mem hb)
    have hh : hide [c] = List.replicate c.utf8Size ' ' := by simp [hide, hc]
    rw [hh, utf8_replicate_space, List.map_congr_left hb, List.map_const',
      String.length_utf8EncodeChar]

theorem utf8_hide (s : List Char) : utf8 (hide s) = (utf8 s).map hiddenByte := by
  induction s with
  | nil => rfl
  | cons c s ih =>
    rw [← List.singleton_append, hide_append, utf8_append, ih, utf8_hide_singleton]
    simp

theorem utf8_masked (t : Token) : utf8 t.masked = t.maskedBytes := by
  cases t with
  | code c => rfl
  | name written => rfl
  | lineComment body => exact utf8_hide _
  | blockComment body closed => exact utf8_hide _
  | literal body closed => exact utf8_hide _

theorem utf8_mask (s : List Char) : utf8 (mask s) = (tokens s).flatMap Token.maskedBytes := by
  rw [mask, utf8_flatMap]
  exact congrArg (List.flatMap · (tokens s)) (funext utf8_masked)

/-- A hidden byte is a line feed exactly if it was one. -/
theorem hiddenByte_eq_lineFeed (b : UInt8) : hiddenByte b = lineFeedByte ↔ b = lineFeedByte := by
  unfold hiddenByte
  split_ifs with h
  · simp [h]
  · simp only [h, iff_false]
    decide

/-- Which bytes are line feeds. -/
def lineFeedFlags (bytes : List UInt8) : List Bool := bytes.map fun b => decide (b = lineFeedByte)

theorem lineFeedFlags_maskedBytes (t : Token) :
    lineFeedFlags t.maskedBytes = lineFeedFlags (utf8 t.written) := by
  have hidden : ∀ bytes, lineFeedFlags (bytes.map hiddenByte) = lineFeedFlags bytes := by
    intro bytes
    simp [lineFeedFlags, hiddenByte_eq_lineFeed]
  cases t with
  | code c => rfl
  | name written => rfl
  | lineComment body => exact hidden _
  | blockComment body closed => exact hidden _
  | literal body closed => exact hidden _

/-- The views agree on where line feeds stand. -/
theorem lineFeedFlags_mask (s : List Char) :
    lineFeedFlags (utf8 (mask s)) = lineFeedFlags (utf8 s) := by
  conv_rhs => rw [← flatMap_written_tokens s]
  rw [mask, utf8_flatMap, utf8_flatMap]
  simp only [lineFeedFlags, List.map_flatMap]
  exact congrArg (List.flatMap · (tokens s)) (funext fun t => by
    rw [utf8_masked]
    exact lineFeedFlags_maskedBytes t)

theorem getElem?_eq_lineFeed {bytes others : List UInt8}
    (h : lineFeedFlags bytes = lineFeedFlags others) (i : ℕ) :
    bytes[i]? = some lineFeedByte ↔ others[i]? = some lineFeedByte := by
  have key : ∀ l : List UInt8, l[i]? = some lineFeedByte ↔ (lineFeedFlags l)[i]? = some true := by
    intro l
    rw [lineFeedFlags, List.getElem?_map]
    cases l[i]? <;> simp
  rw [key, key, h]

/-! ## Comments -/

/-- The text of a comment is its body, for a line comment without the carriage returns at its
end. -/
theorem comment?_eq_some_iff {t : Token} {text : List Char} :
    t.comment? = some text ↔ (∃ closed, t = .blockComment text closed) ∨
      ∃ n, t = .lineComment (text ++ List.replicate n '\r') ∧ text.getLast? ≠ some '\r' := by
  cases t with
  | code c => simp [Token.comment?]
  | name written => simp [Token.comment?]
  | literal body closed => simp [Token.comment?]
  | blockComment body closed => simp [Token.comment?]
  | lineComment body =>
    simp only [Token.comment?, Option.some.injEq, Token.lineComment.injEq, reduceCtorEq,
      exists_false, false_or]
    constructor
    · rintro rfl
      refine ⟨(body.reverse.takeWhile (· == '\r')).length, ?_, ?_⟩
      · have hr : List.replicate (body.reverse.takeWhile (· == '\r')).length '\r' =
            (body.reverse.takeWhile (· == '\r')).reverse := by
          rw [eq_comm, List.eq_replicate_iff]
          exact ⟨by simp, fun c hc => by
            simpa using List.all_eq_true.1 List.all_takeWhile c (List.mem_reverse.1 hc)⟩
        rw [hr, ← List.reverse_append, List.takeWhile_append_dropWhile, List.reverse_reverse]
      · rw [List.getLast?_reverse]
        have := List.head?_dropWhile_not (· == '\r') body.reverse
        split at this
        · next c hc => simpa [hc] using this
        · next hc => simp [hc]
    · rintro ⟨n, rfl, hl⟩
      rw [List.reverse_append, List.reverse_replicate, List.dropWhile_append_of_pos (by simp)]
      rw [← List.head?_reverse] at hl
      cases hr : text.reverse with
      | nil => simp_all
      | cons c more =>
        have hc : c ≠ '\r' := by simpa [hr] using hl
        rw [List.dropWhile_cons_of_neg (by simpa using hc), ← hr, List.reverse_reverse]

theorem lineAt_append (s rest : List Char) :
    lineAt (byteLength s) (s ++ rest) = 1 + lineFeeds s := by
  induction s with
  | nil => simp [lineFeeds]
  | cons c s ih =>
    have hc := Char.utf8Size_pos c
    have hs : c.utf8Size + byteLength s - c.utf8Size = byteLength s := by omega
    rw [byteLength_cons, List.cons_append, lineAt, if_neg (by omega), hs, ih]
    by_cases h : c = '\n'
    · simp only [h, beq_self_eq_true, if_true, lineFeeds, List.count_cons_self]
      omega
    · simp [h, lineFeeds]

/-- The line on which a token of a source opens. -/
theorem lineOf_take_tokens (s : List Char) (i : ℕ) :
    (ofChars s).lineOf (byteLength (((tokens s).take i).flatMap Token.written)) =
      1 + lineFeeds (((tokens s).take i).flatMap Token.written) := by
  have hs : ((tokens s).take i).flatMap Token.written ++
      ((tokens s).drop i).flatMap Token.written = s := by
    rw [← List.flatMap_append, List.take_append_drop, flatMap_written_tokens]
  have h := lineAt_append (((tokens s).take i).flatMap Token.written)
    (((tokens s).drop i).flatMap Token.written)
  rw [hs] at h
  exact h

/-- The comments among tokens that stand behind a text: each has the line that the text before it
leads to. -/
theorem commentsFrom_eq (before : List Char) (ts : List Token) :
    commentsFrom (1 + lineFeeds before) ts = ts.zipIdx.filterMap fun p =>
      p.1.comment?.map fun text =>
        ⟨1 + lineFeeds (before ++ (ts.take p.2).flatMap Token.written), text⟩ := by
  induction ts generalizing before with
  | nil => rfl
  | cons t ts ih =>
    have hl : 1 + lineFeeds before + lineFeeds t.written = 1 + lineFeeds (before ++ t.written) := by
      simp [lineFeeds, Nat.add_assoc]
    rw [List.zipIdx_cons', List.filterMap_cons, commentsFrom, hl, ih]
    simp only [List.filterMap_map]
    cases t.comment? <;> simp

/-- A comment is a token, on the line of the offset at which it opens. -/
theorem comments_eq (s : List Char) :
    (ofChars s).comments = (tokens s).zipIdx.filterMap fun p => p.1.comment?.map fun text =>
      ⟨(ofChars s).lineOf (byteLength (((tokens s).take p.2).flatMap Token.written)), text⟩ := by
  have h := commentsFrom_eq [] (tokens s)
  simp only [List.nil_append] at h
  show commentsFrom 1 (tokens s) = _
  refine h.trans (congrArg (List.filterMap · _) (funext fun p => ?_))
  exact congrArg (Option.map · _) (funext fun text => by rw [← lineOf_take_tokens])

end Source

end Acceptance
