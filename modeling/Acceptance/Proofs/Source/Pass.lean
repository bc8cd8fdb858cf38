import Mathlib.Data.List.Basic
import Acceptance.Proofs.Source.Offset

/-!
# The pass over the bytes, character by character

A character that is no sign is passed over as a whole, whatever number of bytes it has. What the
pass has written and noted at a place is said by the token that it is in, and at the end by all
tokens.

Main results:

* `Pass.run_across`: a character that is no sign is passed over as a whole.
* `Pass.Ends.cons`: what the pass leaves, token by token.
-/

namespace Acceptance.Source

open Text

/-! ## Passing over characters -/

/-- What the pass writes for a byte that is no sign. -/
def Region.shown (region : Region) (b : UInt8) : UInt8 :=
  match region with
  | .code => b
  | .name => b
  | .lineComment => hiddenByte b
  | .blockComment => hiddenByte b
  | .literal => hiddenByte b

/-- Whether the character `c` in front of `s` is a sign, or the first character of one. -/
def Region.Signs (region : Region) (c : Char) (s : List Char) : Prop :=
  match region with
  | .code => c = '/' ∧ (s.head? = some '/' ∨ s.head? = some '*') ∨ c = '\'' ∨ c = '"'
  | .name => c = '"' ∨ c = '\n'
  | .lineComment => c = '\n'
  | .blockComment => c = '*' ∧ s.head? = some '/'
  | .literal => c = '\''

namespace Pass

variable {raw : List Char} {i : ℕ} {p : Pass}

/-- The pass behind the character `c` at the offset `i`, which is no sign. -/
def across (p : Pass) (i : ℕ) (c : Char) : Pass :=
  { p with
    lineStarts := p.lineStarts ++ startsBehind i [c]
    masked := p.masked ++ (String.utf8EncodeChar c).map p.region.shown }

theorem feed_byte {c : Char} (hc : c.toNat < 128) (p : Pass) (i : ℕ) :
    p.feed i (byte c) = { p with lineStarts := p.lineStarts ++ startsBehind i [c] } := by
  have hfeed : byte c = lineFeedByte ↔ c = '\n' := byte_inj (k := '\n') hc (by decide)
  rw [feed]
  by_cases hn : c = '\n'
  · rw [if_pos (hfeed.2 hn), startsBehind, if_pos hn]
    rfl
  · rw [if_neg (mt hfeed.1 hn), startsBehind, if_neg hn]
    show p = { p with lineStarts := p.lineStarts ++ [] }
    rw [List.append_nil]

theorem read_ascii {c : Char} (hc : c.toNat < 128) {s : List Char} (h : ¬ p.region.Signs c s) :
    (p.feed i (byte c)).read raw i (byte c) (utf8 s).head? = some (p.across i c) := by
  have hfeed : byte c = lineFeedByte ↔ c = '\n' := byte_inj (k := '\n') hc (by decide)
  have henc : String.utf8EncodeChar c = [byte c] := by
    obtain ⟨-, henc⟩ | ⟨hbeyond, -⟩ := utf8EncodeChar_cases c
    · exact henc
    · omega
  have hslash := byte_inj hc (k := '/') (by decide)
  have hstar := byte_inj hc (k := '*') (by decide)
  have hquote := byte_inj hc (k := '\'') (by decide)
  have hname := byte_inj hc (k := '"') (by decide)
  have hnslash := head?_utf8 (k := '/') (by decide) s
  have hnstar := head?_utf8 (k := '*') (by decide) s
  have hnquote := head?_utf8 (k := '\'') (by decide) s
  rw [feed_byte hc, read, across, henc]
  cases hr : p.region with
  | code =>
    simp only [hr, Region.Signs, not_or, not_and] at h
    simp only [hslash, hquote, hname, hnslash, hnstar]
    rw [if_neg fun he => (h.1 he.1).1 he.2, if_neg fun he => (h.1 he.1).2 he.2, if_neg h.2.1,
      if_neg h.2.2]
    simp [write, Region.shown]
  | name =>
    simp only [hr, Region.Signs] at h
    simp only [hname, hfeed]
    rw [if_neg h]
    simp [write, Region.shown]
  | lineComment =>
    simp only [hr, Region.Signs] at h
    simp only [hfeed]
    rw [if_neg h]
    simp [write, Region.shown, hiddenByte, hfeed, h]
  | blockComment =>
    simp only [hr, Region.Signs] at h
    simp only [hstar, hnslash]
    rw [if_neg h]
    simp [write, Region.shown]
  | literal =>
    simp only [hr, Region.Signs] at h
    simp only [hquote]
    rw [if_neg fun he => h he.1, if_neg h]
    simp [write, Region.shown]

theorem read_beyond {b : UInt8} (hb : 128 ≤ b.toNat) (next : Option UInt8) :
    (p.feed i b).read raw i b next = some (p.write (p.region.shown b)) := by
  have hfeed : b ≠ lineFeedByte := ne_byte (k := '\n') hb (by decide)
  have hslash : b ≠ byte '/' := ne_byte hb (by decide)
  have hstar : b ≠ byte '*' := ne_byte hb (by decide)
  have hquote : b ≠ byte '\'' := ne_byte hb (by decide)
  have hname : b ≠ byte '"' := ne_byte hb (by decide)
  rw [feed, if_neg hfeed, read]
  cases hr : p.region <;> simp [hfeed, hslash, hstar, hquote, hname, Region.shown, hiddenByte]

theorem run_beyond {bytes : List UInt8} (h : ∀ b ∈ bytes, 128 ≤ b.toNat) (hs : p.skip = false)
    (rest : List UInt8) :
    run raw i p (bytes ++ rest) = run raw (i + bytes.length)
      { p with masked := p.masked ++ bytes.map p.region.shown } rest := by
  induction bytes generalizing i p with
  | nil => simp
  | cons b bytes ih =>
    have hs' : (p.write (p.region.shown b)).skip = false := hs
    rw [List.cons_append, run, if_neg (by simp [hs]), read_beyond (h b List.mem_cons_self),
      Option.bind_some, ih (fun e he => h e (List.mem_cons_of_mem b he)) hs', List.length_cons,
      Nat.add_assoc, Nat.add_comm 1]
    simp [write]

/-- The pass goes over a character that is no sign. -/
theorem run_across {c : Char} {s : List Char} (h : ¬ p.region.Signs c s) (hs : p.skip = false) :
    run raw i p (utf8 (c :: s)) = run raw (i + c.utf8Size) (p.across i c) (utf8 s) := by
  obtain ⟨hc, henc⟩ | ⟨hc, hall⟩ := utf8EncodeChar_cases c
  · have hsize : c.utf8Size = 1 := by
      rw [← String.length_utf8EncodeChar, henc]
      rfl
    rw [utf8_cons, henc, List.singleton_append, run, if_neg (by simp [hs]), read_ascii hc h,
      hsize]
    rfl
  · have hn : c ≠ '\n' := by
      rintro rfl
      exact absurd hc (by decide)
    rw [utf8_cons, run_beyond hall hs, String.length_utf8EncodeChar, across, startsBehind, if_neg hn]
    simp [startsBehind]


end Pass

/-! ## The pass and the tokens -/

namespace Mode

/-- The region that a mode reads. -/
def region : Mode → Region
  | code => .code
  | name _ => .name
  | lineComment _ => .lineComment
  | blockComment _ => .blockComment
  | literal _ => .literal

/-- The bytes that are written for what a mode has read. -/
def maskedBytes (mode : Mode) : List UInt8 := (utf8 mode.written).map mode.region.shown

end Mode

namespace Pass

variable {raw : List Char}

/-- Whether the pass has gone over the text `before` and then over what a mode has read, where it has
written `done` and noted `notes` for the text before the mode. -/
structure Reached (p : Pass) (before : List Char) (mode : Mode) (done : List UInt8)
    (notes : List Comment) : Prop where
  region : p.region = mode.region
  skip : p.skip = false
  lineStarts : p.lineStarts = Source.lineStarts (before ++ mode.written)
  masked : p.masked = done ++ mode.maskedBytes
  comments : p.comments = notes
  opens : mode.region = .lineComment ∨ mode.region = .blockComment →
    p.textStart = byteLength before + 2 ∧ p.openLine = 1 + lineFeeds before

/-- Whether the pass has come to the end, where the bytes of the tokens `ts` are behind `done` and
their comments behind `notes`. -/
def Ends (raw : List Char) (result : Option Pass) (done : List UInt8) (notes : List Comment)
    (line : ℕ) (ts : List Token) : Prop :=
  ∃ q, result = some q ∧ q.lineStarts = Source.lineStarts raw ∧
    q.masked = done ++ ts.flatMap Token.maskedBytes ∧ q.comments = notes ++ commentsFrom line ts

theorem Ends.cons {result : Option Pass} {before : List Char} {done : List UInt8}
    {notes notes' : List Comment} {t : Token} {ts : List Token}
    (hnotes : notes' = notes ++ (t.comment?.map (Comment.mk (1 + lineFeeds before))).toList)
    (h : Ends raw result (done ++ t.maskedBytes) notes' (1 + lineFeeds (before ++ t.written)) ts) :
    Ends raw result done notes (1 + lineFeeds before) (t :: ts) := by
  obtain ⟨q, hq, hstarts, hmasked, hcomments⟩ := h
  refine ⟨q, hq, hstarts, ?_, ?_⟩
  · rw [hmasked, List.append_assoc, List.flatMap_cons]
  · rw [hcomments, hnotes, commentsFrom_cons, List.append_assoc, lineFeeds_append, Nat.add_assoc]

end Pass

end Acceptance.Source
