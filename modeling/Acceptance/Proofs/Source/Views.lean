import Mathlib.Data.List.Basic
import Acceptance.Proofs.Source.Pass

/-!
# The views that the pass gives

Sign by sign, the pass goes on as the tokens of the source do. So it comes to the end, no cut fails,
the written bytes are those of the masked view, and the comments are those among the tokens.

Main results:

* `Pass.run_eq`: what the pass leaves at the end of a source.
* `views?_eq`: the lines and the views of the pass are those of the source.
* `views_of_grammar`: both views and the comments are those that the grammar of sources gives.
-/

namespace Acceptance.Source

open Text

namespace Pass

variable {raw : List Char}

/-! ## One sign after the other -/

/-- A sign of one byte. -/
theorem run_sign {i : ℕ} {p : Pass} (hs : p.skip = false) {c : Char} (hc : c.toNat < 128)
    (s : List Char) :
    run raw i p (utf8 (c :: s)) = ((p.feed i (byte c)).read raw i (byte c) (utf8 s).head?).bind
      fun p => run raw (i + 1) p (utf8 s) := by
  obtain ⟨-, henc⟩ | ⟨hbeyond, -⟩ := utf8EncodeChar_cases c
  · rw [utf8_cons, henc, List.singleton_append, run, if_neg (by simp [hs])]
  · omega

/-- The second byte of a sign. -/
theorem run_skip {i : ℕ} {p : Pass} (hs : p.skip = true) {c : Char} (hc : c.toNat < 128)
    (s : List Char) :
    run raw i p (utf8 (c :: s)) =
      run raw (i + 1) ({ p with skip := false }.write spaceByte) (utf8 s) := by
  obtain ⟨-, henc⟩ | ⟨hbeyond, -⟩ := utf8EncodeChar_cases c
  · rw [utf8_cons, henc, List.singleton_append, run, if_pos hs]
  · omega

/-- Whether the pass goes from one place to another, from in front of `s` to in front of `s'`. -/
def Goes (raw : List Char) (p : Pass) (before : List Char) (mode : Mode) (s : List Char)
    (before' : List Char) (mode' : Mode) (s' : List Char) (done : List UInt8)
    (notes : List Comment) : Prop :=
  ∃ q : Pass, q.Reached before' mode' done notes ∧
    run raw (byteLength (before ++ mode.written)) p (utf8 s) =
      run raw (byteLength (before' ++ mode'.written)) q (utf8 s')

/-- The pass ends at one place as it does at the place that it goes to from there. -/
theorem Goes.ends {p : Pass} {before before' s s' : List Char} {mode mode' : Mode}
    {done done' : List UInt8} {notes notes' : List Comment} {line : ℕ} {ts : List Token}
    (h : Goes raw p before mode s before' mode' s' done' notes')
    (hends : ∀ q : Pass, q.Reached before' mode' done' notes' →
      Ends raw (run raw (byteLength (before' ++ mode'.written)) q (utf8 s')) done notes line ts) :
    Ends raw (run raw (byteLength (before ++ mode.written)) p (utf8 s)) done notes line ts := by
  obtain ⟨q, hq, hrun⟩ := h
  rw [hrun]
  exact hends q hq

section Signs

variable (raw) {p : Pass} {before : List Char} {done : List UInt8} {notes : List Comment}

/-- A character that is no sign belongs to what is being read. -/
theorem goes_across {mode : Mode} (mode' : Mode) (h : p.Reached before mode done notes) {c : Char}
    {s : List Char} (hc : ¬ mode.region.Signs c s) (hregion : mode'.region = mode.region)
    (hwritten : mode'.written = mode.written ++ [c]) :
    Goes raw p before mode (c :: s) before mode' s done notes := by
  refine ⟨p.across (byteLength (before ++ mode.written)) c,
    ⟨h.region.trans hregion.symm, h.skip, ?_, ?_, h.comments, fun ho => h.opens (hregion ▸ ho)⟩, ?_⟩
  · show p.lineStarts ++ _ = _
    rw [h.lineStarts, ← lineStarts_append, hwritten, List.append_assoc]
  · show p.masked ++ _ = _
    rw [h.masked, h.region, Mode.maskedBytes, Mode.maskedBytes, hregion, hwritten, utf8_append,
      List.map_append, List.append_assoc, utf8_cons, utf8_nil, List.append_nil]
  · rw [run_across (h.region ▸ hc) h.skip, hwritten, ← List.append_assoc, byteLength_append _ [c],
      byteLength_cons, byteLength_nil, Nat.add_zero]

/-- A character of code that is no sign. -/
theorem goes_code (h : p.Reached before .code done notes) {c : Char} {s : List Char}
    (hc : ¬ Region.code.Signs c s) :
    Goes raw p before .code (c :: s) (before ++ [c]) .code s (done ++ utf8 [c]) notes := by
  have hshown : (utf8 [c]).map Region.code.shown = utf8 [c] := List.map_id _
  refine ⟨p.across (byteLength (before ++ Mode.code.written)) c,
    ⟨h.region, h.skip, ?_, ?_, h.comments, by rintro (⟨⟨⟩⟩ | ⟨⟨⟩⟩)⟩, ?_⟩
  · show p.lineStarts ++ _ = _
    rw [h.lineStarts, ← lineStarts_append]
    simp [Mode.written]
  · show p.masked ++ _ = _
    rw [h.masked, h.region]
    simpa [Mode.maskedBytes, Mode.written, Mode.region] using hshown
  · rw [run_across (h.region ▸ hc) h.skip]
    simp [Mode.written]

/-- The sign that opens a comment. -/
theorem goes_comment (h : p.Reached before .code done notes) {c : Char} {mode : Mode}
    (hmode : c = '/' ∧ mode = .lineComment [] ∨ c = '*' ∧ mode = .blockComment [])
    (s : List Char) :
    Goes raw p before .code ('/' :: c :: s) before mode s done notes := by
  have hregion : p.region = .code := h.region
  refine ⟨{ p.enter mode.region (byteLength before) with skip := false }.write spaceByte,
    ⟨rfl, rfl, ?_, ?_, h.comments, fun _ => ⟨rfl, ?_⟩⟩, ?_⟩
  · show p.lineStarts = _
    rw [h.lineStarts, lineStarts_append, lineStarts_append]
    obtain ⟨rfl, rfl⟩ | ⟨rfl, rfl⟩ := hmode <;> rfl
  · show p.masked ++ [spaceByte] ++ [spaceByte] = _
    rw [h.masked]
    obtain ⟨rfl, rfl⟩ | ⟨rfl, rfl⟩ := hmode <;>
      simp [Mode.maskedBytes, Mode.written] <;> rfl
  · show p.lineStarts.length = _
    rw [h.lineStarts, length_lineStarts]
    simp [Mode.written]
  · have hread : (p.feed (byteLength before) (byte '/')).read raw (byteLength before) (byte '/')
        (utf8 (c :: s)).head? = some (p.enter mode.region (byteLength before)) := by
      rw [feed, if_neg (by decide), read, hregion]
      obtain ⟨rfl, rfl⟩ | ⟨rfl, rfl⟩ := hmode
      · exact if_pos ⟨rfl, rfl⟩
      · have hne : some (byte '*') ≠ some (byte '/') := by decide
        exact (if_neg fun he => hne he.2).trans (if_pos ⟨rfl, rfl⟩)
    have hc : c.toNat < 128 := by
      obtain ⟨rfl, -⟩ | ⟨rfl, -⟩ := hmode <;> decide
    have hlen : byteLength (before ++ mode.written) = byteLength before + 1 + 1 := by
      obtain ⟨rfl, rfl⟩ | ⟨rfl, rfl⟩ := hmode <;> simp [Mode.written] <;> rfl
    have hbefore : before ++ Mode.code.written = before := List.append_nil before
    rw [hbefore, run_sign h.skip (by decide), hread, Option.bind_some, run_skip rfl hc, hlen]

/-- A quote that opens a literal or a name. -/
theorem goes_quote (h : p.Reached before .code done notes) {c : Char} {mode : Mode}
    (hmode : c = '\'' ∧ mode = .literal [] ∨ c = '"' ∧ mode = .name ['"']) (s : List Char) :
    Goes raw p before .code (c :: s) before mode s done notes := by
  have hregion : p.region = .code := h.region
  refine ⟨{ p with region := mode.region }.write (mode.region.shown (byte c)),
    ⟨rfl, h.skip, ?_, ?_, h.comments, ?_⟩, ?_⟩
  · show p.lineStarts = _
    rw [h.lineStarts, lineStarts_append, lineStarts_append]
    obtain ⟨rfl, rfl⟩ | ⟨rfl, rfl⟩ := hmode <;> rfl
  · show p.masked ++ _ = _
    rw [h.masked]
    obtain ⟨rfl, rfl⟩ | ⟨rfl, rfl⟩ := hmode <;> simp [Mode.maskedBytes, Mode.written] <;> rfl
  · obtain ⟨rfl, rfl⟩ | ⟨rfl, rfl⟩ := hmode <;> rintro (⟨⟨⟩⟩ | ⟨⟨⟩⟩)
  · have hread : (p.feed (byteLength before) (byte c)).read raw (byteLength before) (byte c)
        (utf8 s).head? =
          some ({ p with region := mode.region }.write (mode.region.shown (byte c))) := by
      obtain ⟨rfl, rfl⟩ | ⟨rfl, rfl⟩ := hmode
      · rw [feed, if_neg (by decide), read, hregion]
        have hslash : byte '\'' ≠ byte '/' := by decide
        exact (if_neg fun he => hslash he.1).trans
          ((if_neg fun he => hslash he.1).trans (if_pos rfl))
      · rw [feed, if_neg (by decide), read, hregion]
        have hslash : byte '"' ≠ byte '/' := by decide
        have hquote : byte '"' ≠ byte '\'' := by decide
        exact (if_neg fun he => hslash he.1).trans
          ((if_neg fun he => hslash he.1).trans ((if_neg hquote).trans (if_pos rfl)))
    have hc : c.toNat < 128 := by
      obtain ⟨rfl, -⟩ | ⟨rfl, -⟩ := hmode <;> decide
    have hlen : byteLength (before ++ mode.written) = byteLength before + 1 := by
      obtain ⟨rfl, rfl⟩ | ⟨rfl, rfl⟩ := hmode <;> simp [Mode.written] <;> rfl
    have hbefore : before ++ Mode.code.written = before := List.append_nil before
    rw [hbefore, run_sign h.skip hc, hread, Option.bind_some, hlen]

/-- What the pass has to have come to for code to go on behind `before`. -/
theorem Reached.ofCode {q : Pass} (hregion : q.region = .code) (hskip : q.skip = false)
    (hstarts : q.lineStarts = Source.lineStarts before) (hmasked : q.masked = done)
    (hcomments : q.comments = notes) : q.Reached before .code done notes := by
  refine ⟨hregion, hskip, ?_, ?_, hcomments, by rintro (⟨⟨⟩⟩ | ⟨⟨⟩⟩)⟩
  · simpa [Mode.written] using hstarts
  · simpa [Mode.maskedBytes, Mode.written] using hmasked

/-- The quote or line feed that ends a name. -/
theorem goes_nameEnd {read : List Char} (h : p.Reached before (.name read) done notes) {c : Char}
    (hc : c = '"' ∨ c = '\n') (s : List Char) :
    Goes raw p before (.name read) (c :: s) (before ++ (c :: read).reverse) .code s
      (done ++ (Token.name (c :: read).reverse).maskedBytes) notes := by
  have hregion : p.region = .name := h.region
  have hascii : c.toNat < 128 := by
    obtain rfl | rfl := hc <;> decide
  let i := byteLength (before ++ (Mode.name read).written)
  refine ⟨{ p.feed i (byte c) with region := .code }.write (byte c), .ofCode rfl ?_ ?_ ?_ ?_, ?_⟩
  · rw [feed_byte hascii]
    exact h.skip
  · rw [feed_byte hascii]
    show p.lineStarts ++ _ = _
    rw [h.lineStarts, ← lineStarts_append]
    simp [Mode.written]
  · rw [feed_byte hascii]
    show p.masked ++ _ = _
    have henc : String.utf8EncodeChar c = [byte c] := by
      obtain rfl | rfl := hc <;> rfl
    have hshown : (utf8 read.reverse).map Region.name.shown = utf8 read.reverse := List.map_id _
    rw [h.masked, Mode.maskedBytes, Mode.written, Mode.region, hshown, Token.maskedBytes,
      List.reverse_cons, utf8_append, utf8_cons, utf8_nil, List.append_nil, henc, List.append_assoc]
  · rw [feed_byte hascii]
    exact h.comments
  · have hread : (p.feed i (byte c)).read raw i (byte c) (utf8 s).head? =
        some ({ p.feed i (byte c) with region := .code }.write (byte c)) := by
      rw [feed_byte hascii, Pass.read]
      simp only [hregion]
      refine if_pos ?_
      obtain rfl | rfl := hc
      · exact .inl rfl
      · exact .inr rfl
    have hsize : c.utf8Size = 1 := by
      obtain rfl | rfl := hc <;> rfl
    have hlen : byteLength (before ++ (c :: read).reverse ++ Mode.code.written) = i + 1 := by
      simp [i, Mode.written, hsize]
      omega
    rw [run_sign h.skip hascii, hread, Option.bind_some, hlen]

/-- A cut behind the sign that opens a comment. -/
theorem dropBytes?_comment {x y : Char} (hx : x.utf8Size = 1) (hy : y.utf8Size = 1)
    (before read : List Char) :
    dropBytes? (byteLength before + 2) (before ++ x :: y :: read) = some read := by
  have hstart : byteLength before + 2 = byteLength (before ++ [x, y]) := by
    simp [hx, hy]
  have htext : before ++ x :: y :: read = (before ++ [x, y]) ++ read := by simp
  rw [hstart, htext]
  exact dropBytes?_append _ _

/-- The cut at the end of a comment gives the text that has been read. -/
theorem slice?_comment {x y : Char} (hx : x.utf8Size = 1) (hy : y.utf8Size = 1)
    (before read s : List Char) :
    slice? (byteLength before + 2) (byteLength (before ++ x :: y :: read))
      (before ++ (x :: y :: read ++ s)) = some read := by
  have hend : byteLength (before ++ x :: y :: read) = byteLength before + 2 + byteLength read := by
    rw [byteLength_append, byteLength_cons, byteLength_cons, hx, hy]
    omega
  rw [hend]
  exact slice?_of_dropBytes? (dropBytes?_comment hx hy before (read ++ s))

/-- The line feed that ends a line comment is code again. -/
theorem goes_lineEnd {read : List Char} (h : p.Reached before (.lineComment read) done notes)
    {s : List Char} (hraw : raw = before ++ ((Mode.lineComment read).written ++ '\n' :: s)) :
    Goes raw p before (.lineComment read) ('\n' :: s)
      (before ++ (Token.lineComment read.reverse).written ++ ['\n']) .code s
      (done ++ (Token.lineComment read.reverse).maskedBytes ++ [lineFeedByte])
      (notes ++ [⟨1 + lineFeeds before, trimReturns read.reverse⟩]) := by
  have hregion : p.region = .lineComment := h.region
  obtain ⟨htext, hline⟩ := h.opens (.inl rfl)
  let i := byteLength (before ++ (Mode.lineComment read).written)
  let text := trimReturns read.reverse
  refine ⟨((p.feed i lineFeedByte).note text).write lineFeedByte, .ofCode rfl ?_ ?_ ?_ ?_, ?_⟩
  · rw [feed, if_pos rfl]
    exact h.skip
  · rw [feed, if_pos rfl]
    show p.lineStarts ++ _ = _
    have hfeed : [i + 1] = startsBehind i ['\n'] := rfl
    rw [h.lineStarts, hfeed, ← lineStarts_append]
    rfl
  · rw [feed, if_pos rfl]
    show p.masked ++ _ = _
    rw [h.masked]
    rfl
  · rw [feed, if_pos rfl]
    show p.comments ++ [⟨p.openLine, text⟩] = _
    rw [h.comments, hline]
  · have hcut : slice? p.textStart i raw = some read.reverse := by
      rw [htext, hraw]
      exact slice?_comment rfl rfl before read.reverse ('\n' :: s)
    have hread : (p.feed i lineFeedByte).read raw i lineFeedByte (utf8 s).head? =
        some (((p.feed i lineFeedByte).note text).write lineFeedByte) := by
      rw [feed, if_pos rfl, Pass.read]
      simp only [hregion]
      rw [if_pos trivial, hcut]
      rfl
    have hlen : byteLength (before ++ (Token.lineComment read.reverse).written ++ ['\n'] ++
        Mode.code.written) = i + 1 := by
      simp [i, Mode.written, Token.written]
      rfl
    have hbyte : byte '\n' = lineFeedByte := rfl
    rw [run_sign h.skip (by decide), hbyte, hread, Option.bind_some, hlen]

/-- The sign that ends a block comment. -/
theorem goes_blockEnd {read : List Char} (h : p.Reached before (.blockComment read) done notes)
    {s : List Char} (hraw : raw = before ++ ((Mode.blockComment read).written ++ '*' :: '/' :: s)) :
    Goes raw p before (.blockComment read) ('*' :: '/' :: s)
      (before ++ (Token.blockComment read.reverse true).written) .code s
      (done ++ (Token.blockComment read.reverse true).maskedBytes)
      (notes ++ [⟨1 + lineFeeds before, read.reverse⟩]) := by
  have hregion : p.region = .blockComment := h.region
  obtain ⟨htext, hline⟩ := h.opens (.inr rfl)
  let i := byteLength (before ++ (Mode.blockComment read).written)
  have hfeed : p.feed i (byte '*') = p := if_neg (by decide)
  have hwritten : (Token.blockComment read.reverse true).written =
      (Mode.blockComment read).written ++ ['*', '/'] := rfl
  have hmasked : (Token.blockComment read.reverse true).maskedBytes =
      (utf8 (Token.blockComment read.reverse true).written).map hiddenByte := rfl
  refine ⟨{ { p.note read.reverse with skip := true }.write spaceByte with skip := false }.write
    spaceByte, .ofCode rfl rfl ?_ ?_ ?_, ?_⟩
  · show p.lineStarts = _
    rw [h.lineStarts, hwritten, ← List.append_assoc, lineStarts_append _ ['*', '/']]
    exact (List.append_nil _).symm
  · show p.masked ++ [spaceByte] ++ [spaceByte] = _
    rw [h.masked, hmasked, hwritten, utf8_append, List.map_append, List.append_assoc,
      List.append_assoc]
    rfl
  · show p.comments ++ [⟨p.openLine, read.reverse⟩] = _
    rw [h.comments, hline]
  · have hcut : slice? p.textStart i raw = some read.reverse := by
      rw [htext, hraw]
      exact slice?_comment rfl rfl before read.reverse ('*' :: '/' :: s)
    have hread : (p.feed i (byte '*')).read raw i (byte '*') (utf8 ('/' :: s)).head? =
        some ({ p.note read.reverse with skip := true }.write spaceByte) := by
      rw [hfeed, Pass.read]
      simp only [hregion]
      rw [if_pos ⟨trivial, rfl⟩, hcut]
      rfl
    have hlen : byteLength (before ++ (Token.blockComment read.reverse true).written ++
        Mode.code.written) = i + 1 + 1 := by
      simp [i, Mode.written, Token.written]
      rfl
    rw [run_sign h.skip (by decide), hread, Option.bind_some, run_skip rfl (by decide), hlen]

/-- Two quotes in a row inside a literal. -/
theorem goes_doubled {read : List Char} (h : p.Reached before (.literal read) done notes)
    (s : List Char) :
    Goes raw p before (.literal read) ('\'' :: '\'' :: s) before
      (.literal ('\'' :: '\'' :: read)) s done notes := by
  have hregion : p.region = .literal := h.region
  let i := byteLength (before ++ (Mode.literal read).written)
  have hfeed : p.feed i (byte '\'') = p := if_neg (by decide)
  have hwritten : (Mode.literal ('\'' :: '\'' :: read)).written =
      (Mode.literal read).written ++ ['\'', '\''] := by simp [Mode.written]
  refine ⟨{ { p with skip := true }.write spaceByte with skip := false }.write spaceByte,
    ⟨h.region, rfl, ?_, ?_, h.comments, by rintro (⟨⟨⟩⟩ | ⟨⟨⟩⟩)⟩, ?_⟩
  · show p.lineStarts = _
    rw [h.lineStarts, hwritten, ← List.append_assoc, lineStarts_append _ ['\'', '\'']]
    exact (List.append_nil _).symm
  · show p.masked ++ [spaceByte] ++ [spaceByte] = _
    rw [h.masked, Mode.maskedBytes, Mode.maskedBytes, hwritten, utf8_append, List.map_append,
      List.append_assoc, List.append_assoc]
    rfl
  · have hread : (p.feed i (byte '\'')).read raw i (byte '\'') (utf8 ('\'' :: s)).head? =
        some ({ p with skip := true }.write spaceByte) := by
      rw [hfeed, Pass.read]
      simp only [hregion]
      exact if_pos ⟨trivial, rfl⟩
    have hlen : byteLength (before ++ (Mode.literal ('\'' :: '\'' :: read)).written) =
        i + 1 + 1 := by
      rw [hwritten, ← List.append_assoc, byteLength_append _ ['\'', '\'']]
      rfl
    rw [run_sign h.skip (by decide), hread, Option.bind_some, run_skip rfl (by decide), hlen]

/-- The quote that ends a literal. -/
theorem goes_literalEnd {read : List Char} (h : p.Reached before (.literal read) done notes)
    {s : List Char} (hs : s.head? ≠ some '\'') :
    Goes raw p before (.literal read) ('\'' :: s)
      (before ++ (Token.literal read.reverse true).written) .code s
      (done ++ (Token.literal read.reverse true).maskedBytes) notes := by
  have hregion : p.region = .literal := h.region
  let i := byteLength (before ++ (Mode.literal read).written)
  have hfeed : p.feed i (byte '\'') = p := if_neg (by decide)
  have hwritten : (Token.literal read.reverse true).written =
      (Mode.literal read).written ++ ['\''] := rfl
  have hmasked : (Token.literal read.reverse true).maskedBytes =
      (utf8 (Token.literal read.reverse true).written).map hiddenByte := rfl
  refine ⟨{ p with region := .code }.write spaceByte, .ofCode rfl h.skip ?_ ?_ h.comments, ?_⟩
  · show p.lineStarts = _
    rw [h.lineStarts, hwritten, ← List.append_assoc, lineStarts_append _ ['\'']]
    exact (List.append_nil _).symm
  · show p.masked ++ [spaceByte] = _
    rw [h.masked, hmasked, hwritten, utf8_append, List.map_append, List.append_assoc]
    rfl
  · have hread : (p.feed i (byte '\'')).read raw i (byte '\'') (utf8 s).head? =
        some ({ p with region := .code }.write spaceByte) := by
      have hnext : (utf8 s).head? ≠ some (byte '\'') := mt (head?_utf8 (by decide) s).1 hs
      rw [hfeed, Pass.read]
      simp only [hregion]
      exact (if_neg fun he => hnext he.2).trans (if_pos trivial)
    have hlen : byteLength (before ++ (Token.literal read.reverse true).written ++
        Mode.code.written) = i + 1 := by
      simp [i, Mode.written, Token.written]
      rfl
    rw [run_sign h.skip (by decide), hread, Option.bind_some, hlen]

end Signs

/-! ## The whole pass -/

theorem finish_eq {mode : Mode} {p : Pass} {before : List Char} {done : List UInt8}
    {notes : List Comment} (h : p.Reached before mode done notes)
    (hraw : raw = before ++ mode.written) :
    Ends raw (p.finish raw) done notes (1 + lineFeeds before) mode.finish := by
  have hstarts : p.lineStarts = Source.lineStarts raw := h.lineStarts.trans (hraw ▸ rfl)
  have hmasked := h.masked
  have hregion := h.region
  have hcomments := h.comments
  -- what is left open at the end is one token
  have last {t : Token} {q : Pass} {notes' : List Comment} (hq : p.finish raw = some q)
      (hlines : q.lineStarts = p.lineStarts) (hbytes : q.masked = done ++ t.maskedBytes)
      (hnotes : q.comments = notes')
      (ht : notes' = notes ++ (t.comment?.map (Comment.mk (1 + lineFeeds before))).toList) :
      Ends raw (p.finish raw) done notes (1 + lineFeeds before) [t] :=
    .cons ht ⟨q, hq, hlines.trans hstarts, by simpa using hbytes, by simpa [commentsFrom] using hnotes⟩
  cases mode with
  | code =>
    refine ⟨p, by rw [finish, hregion]; rfl, hstarts, hmasked, ?_⟩
    rw [hcomments]
    exact (List.append_nil _).symm
  | name read =>
    refine last (by rw [finish, hregion]; rfl) rfl ?_ hcomments (List.append_nil _).symm
    rw [hmasked]
    exact congrArg (done ++ ·) (List.map_id _)
  | lineComment read =>
    obtain ⟨htext, hline⟩ := h.opens (.inl rfl)
    have hcut : dropBytes? p.textStart raw = some read.reverse := by
      rw [htext, hraw]
      exact dropBytes?_comment rfl rfl before read.reverse
    refine last (q := p.note (trimReturns read.reverse)) ?_ rfl hmasked ?_ rfl
    · rw [finish, hregion]
      exact congrArg (Option.map _) hcut
    · show p.comments ++ _ = _
      rw [hcomments, hline]
      rfl
  | blockComment read =>
    obtain ⟨htext, hline⟩ := h.opens (.inr rfl)
    have hcut : dropBytes? p.textStart raw = some read.reverse := by
      rw [htext, hraw]
      exact dropBytes?_comment rfl rfl before read.reverse
    refine last (q := p.note read.reverse) ?_ rfl hmasked ?_ rfl
    · rw [finish, hregion]
      exact congrArg (Option.map _) hcut
    · show p.comments ++ _ = _
      rw [hcomments, hline]
      rfl
  | literal read =>
    exact last (by rw [finish, hregion]; rfl) rfl hmasked hcomments (List.append_nil _).symm

theorem run_eq (mode : Mode) (s : List Char) {p : Pass} {before : List Char} {done : List UInt8}
    {notes : List Comment} (h : p.Reached before mode done notes)
    (hraw : raw = before ++ (mode.written ++ s)) :
    Ends raw (run raw (byteLength (before ++ mode.written)) p (utf8 s)) done notes
      (1 + lineFeeds before) (tokensFrom mode s) := by
  fun_induction tokensFrom mode s generalizing p before done notes with
  | case1 mode => exact finish_eq h (by simpa using hraw)
  | case2 rest ih =>
    exact (goes_comment raw h (.inl ⟨rfl, rfl⟩) rest).ends fun _ hq => ih hq hraw
  | case3 rest ih =>
    exact (goes_comment raw h (.inr ⟨rfl, rfl⟩) rest).ends fun _ hq => ih hq hraw
  | case4 rest ih =>
    exact (goes_quote raw h (.inl ⟨rfl, rfl⟩) rest).ends fun _ hq => ih hq hraw
  | case5 rest ih =>
    exact (goes_quote raw h (.inr ⟨rfl, rfl⟩) rest).ends fun _ hq => ih hq hraw
  | case6 c rest h1 h2 h3 h4 ih =>
    have hsign : ¬ Region.code.Signs c rest := by
      rintro (⟨rfl, hs | hs⟩ | rfl | rfl)
      · obtain ⟨more, rfl⟩ := List.head?_eq_some_iff.1 hs
        exact h1 more rfl rfl
      · obtain ⟨more, rfl⟩ := List.head?_eq_some_iff.1 hs
        exact h2 more rfl rfl
      · exact h3 rfl
      · exact h4 rfl
    refine (goes_code raw h hsign).ends fun _ hq => .cons (List.append_nil _).symm (ih hq ?_)
    rw [hraw, List.append_assoc]
    rfl
  | case7 read c rest hc ih =>
    have hend : c = '"' ∨ c = '\n' := by simpa using hc
    refine (goes_nameEnd raw h hend rest).ends fun _ hq => .cons (List.append_nil _).symm (ih hq ?_)
    rw [hraw]
    simp [Mode.written]
  | case8 read c rest hc ih =>
    have hsign : ¬ Region.name.Signs c rest := by
      intro hs
      obtain rfl | rfl := hs <;> exact hc rfl
    refine (goes_across raw (.name (c :: read)) h hsign rfl List.reverse_cons).ends
      fun _ hq => ih hq ?_
    rw [hraw]
    simp [Mode.written]
  | case9 read rest ih =>
    refine (goes_lineEnd raw h hraw).ends fun _ hq =>
      .cons rfl (.cons (List.append_nil _).symm (ih hq ?_))
    rw [hraw]
    simp [Mode.written, Token.written]
  | case10 read c rest h1 ih =>
    refine (goes_across raw (.lineComment (c :: read)) h (s := rest) h1 rfl
      (by simp [Mode.written])).ends fun _ hq => ih hq ?_
    rw [hraw]
    simp [Mode.written]
  | case11 read rest ih =>
    refine (goes_blockEnd raw h hraw).ends fun _ hq => .cons rfl (ih hq ?_)
    rw [hraw]
    simp [Mode.written, Token.written]
  | case12 read c rest h1 ih =>
    have hsign : ¬ Region.blockComment.Signs c rest := by
      rintro ⟨rfl, hs⟩
      obtain ⟨more, rfl⟩ := List.head?_eq_some_iff.1 hs
      exact h1 more rfl rfl
    refine (goes_across raw (.blockComment (c :: read)) h hsign rfl
      (by simp [Mode.written])).ends fun _ hq => ih hq ?_
    rw [hraw]
    simp [Mode.written]
  | case13 read rest ih =>
    refine (goes_doubled raw h rest).ends fun _ hq => ih hq ?_
    rw [hraw]
    simp [Mode.written]
  | case14 read rest h1 ih =>
    have hnext : rest.head? ≠ some '\'' := by
      intro hs
      obtain ⟨more, rfl⟩ := List.head?_eq_some_iff.1 hs
      exact h1 more rfl
    refine (goes_literalEnd raw h hnext).ends fun _ hq =>
      .cons (List.append_nil _).symm (ih hq ?_)
    rw [hraw]
    simp [Mode.written, Token.written]
  | case15 read c rest h1 h2 ih =>
    refine (goes_across raw (.literal (c :: read)) h (s := rest) h2 rfl
      (by simp [Mode.written])).ends fun _ hq => ih hq ?_
    rw [hraw]
    simp [Mode.written]

end Pass

/-- No cut of the pass fails, and it gives the lines and the views of the source. -/
theorem views?_eq (raw : List Char) : views? raw = some (lineStarts raw, ofChars raw) := by
  have hstart : Pass.start.Reached [] .code [] [] :=
    ⟨rfl, rfl, rfl, rfl, rfl, by rintro (⟨⟨⟩⟩ | ⟨⟨⟩⟩)⟩
  obtain ⟨q, hq, hstarts, hmasked, hcomments⟩ := Pass.run_eq .code raw hstart rfl
  have hrun : Pass.start.run raw 0 (utf8 raw) = some q := hq
  have hbytes : q.masked = utf8 (mask raw) := hmasked.trans (utf8_mask raw).symm
  rw [views?, hrun]
  show (decode? q.masked).bind _ = _
  rw [hbytes, decode?_utf8, hstarts, hcomments]
  rfl

/-- A source and its grammar: there is one way to read the source as tokens. The pass gives the
masked view with the bytes of the source, but a space for every byte of a comment or literal that is
no line feed, so it is UTF-8 of the same length with line feeds at the same offsets. The comments
are those among the tokens, in order, each with its body and the line of its opening sign. -/
theorem views_of_grammar (raw : List Char) :
    ∃ s ts, views? raw = some (lineStarts raw, s) ∧ s = ofChars raw ∧ s.raw = raw ∧
      (∀ us, Reads raw us ↔ us = ts) ∧
      utf8 s.raw = ts.flatMap (fun t => utf8 t.written) ∧
      utf8 s.masked = ts.flatMap Token.maskedBytes ∧
      (utf8 s.masked).length = (utf8 raw).length ∧
      (∀ i : ℕ, (utf8 s.masked)[i]? = some lineFeedByte ↔ (utf8 raw)[i]? = some lineFeedByte) ∧
      s.comments = (ts.zipIdx.filterMap fun p => p.1.comment?.map fun text =>
        ⟨s.lineOf (byteLength ((ts.take p.2).flatMap Token.written)), text⟩) ∧
      ∀ t text, Token.comment? t = some text ↔ (∃ closed, t = .blockComment text closed) ∨
        ∃ n, t = .lineComment (text ++ List.replicate n '\r') ∧ text.getLast? ≠ some '\r' := by
  refine ⟨ofChars raw, tokens raw, views?_eq raw, rfl, rfl, fun us => reads_iff.trans eq_comm,
    ?_, ?_, ?_, ?_, comments_eq raw, fun t text => comment?_eq_some_iff⟩
  · rw [← utf8_flatMap, flatMap_written_tokens]
    rfl
  · exact utf8_mask raw
  · rw [length_utf8, length_utf8]
    exact byteLength_masked raw
  · exact getElem?_eq_lineFeed (lineFeedFlags_mask raw)

end Acceptance.Source
