import Mathlib.Data.List.Basic
import Acceptance.Proofs.Markup.Kept
import Acceptance.Proofs.Markup.Pairs

/-!
# The spans of emphasis

The emphasis of a document is reported as spans of bytes: from the first opening mark to the end of
what is taken out behind. Striking out the marks of the spans takes out what emphasis takes out of a
text, and a text without markup can be told from the spans alone.

Main results:

* `mem_row_iff`: a row of places is a row of bytes.
* `emphasisSpans_eq_nil`: where there is no emphasis.
* `marks_span`, `any_marks_emphasisSpans`: the marks of spans are the places that emphasis takes out.
* `withoutMarkup?_emphasisSpans`: the text without the spans of its emphasis.
-/

namespace Acceptance.Markup

open Text Place

variable {text : List Char}

/-! ## Offsets -/

/-- The number of bytes before a place. -/
def Place.offset (p : Place text) : ℕ := byteLength p.before.reverse

theorem Place.offset_eq (p : Place text) : p.offset = byteLength (text.take p.position) := by
  obtain ⟨before, char, after, rfl⟩ := p
  show byteLength before.reverse = byteLength (List.take before.length _)
  rw [← @List.length_reverse _ before, List.take_left]

theorem Place.char_mem (p : Place text) : p.char ∈ text := by
  obtain ⟨before, char, after, rfl⟩ := p
  exact List.mem_append_right _ List.mem_cons_self

theorem Place.offset_add_le (p : Place text) : p.offset + p.char.utf8Size ≤ byteLength text := by
  obtain ⟨before, char, after, rfl⟩ := p
  show byteLength before.reverse + char.utf8Size ≤ _
  rw [byteLength_append, byteLength_cons]
  omega

theorem byteLength_take_succ (p : Place text) :
    byteLength (text.take (p.position + 1)) = p.offset + p.char.utf8Size := by
  have hget := p.getElem?_position
  rw [List.take_add_one, hget, byteLength_append, p.offset_eq]
  rfl

theorem Place.Before.offset_add_le {a b : Place text} (h : Before a b) :
    a.offset + a.char.utf8Size ≤ b.offset := by
  rw [← byteLength_take_succ, b.offset_eq]
  exact byteLength_le_of_sublist (List.take_sublist_take_left h)

/-- A place right behind another one starts where that one ends. -/
theorem Place.Next.offset_eq {a b : Place text} (h : Next a b) :
    b.offset = a.offset + a.char.utf8Size := by
  rw [b.offset_eq, h, byteLength_take_succ]

/-- Offsets tell places apart. -/
theorem offset_eq_iff {start more : List Char} {c : Char} (h : text = start ++ c :: more)
    (p : Place text) : byteLength start = p.offset ↔ start.length = p.position := by
  have hstart : text.take start.length = start := by rw [h, List.take_left]
  have hsucc : text.take (start.length + 1) = start ++ [c] := by
    rw [h, List.take_length_add_append, List.take_succ_cons, List.take_zero]
  constructor
  · intro heq
    rcases Nat.lt_trichotomy start.length p.position with hlt | hlt | hlt
    · have hle := byteLength_le_of_sublist (List.take_sublist_take_left (l := text) hlt)
      have hpos := Char.utf8Size_pos c
      rw [← p.offset_eq, hsucc, byteLength_append, byteLength_cons] at hle
      omega
    · exact hlt
    · have hle := byteLength_le_of_sublist (List.take_sublist_take_left (l := text) hlt)
      have hpos := Char.utf8Size_pos p.char
      rw [byteLength_take_succ, hstart] at hle
      omega
  · intro heq
    rw [p.offset_eq, ← heq, hstart]

/-! ## Rows -/

/-- A row of places of one byte is a row of bytes. -/
theorem mem_row_iff {start more : List Char} {c : Char} (h : text = start ++ c :: more)
    {p : Place text} {row : List (Place text)} (hrow : (p :: row).IsChain Next)
    (hsize : ∀ q ∈ p :: row, q.char.utf8Size = 1) :
    start.length ∈ (p :: row).map (·.position) ↔
      p.offset ≤ byteLength start ∧ byteLength start < p.offset + (row.length + 1) := by
  induction row generalizing p with
  | nil =>
    have hp := offset_eq_iff h p
    rw [List.map_singleton, List.mem_singleton, ← hp, List.length_nil]
    omega
  | cons q row ih =>
    obtain ⟨hnext, hrow⟩ := List.isChain_cons_cons.1 hrow
    have hq := hnext.offset_eq
    rw [hsize p List.mem_cons_self] at hq
    have hp := offset_eq_iff h p
    rw [List.map_cons, List.mem_cons, ← hp,
      ih hrow fun r hr => hsize r (List.mem_cons_of_mem p hr), hq, List.length_cons]
    omega

/-- The last place of a row of places of one byte. -/
theorem offset_getLast {p : Place text} {row : List (Place text)} (hrow : (p :: row).IsChain Next)
    (hsize : ∀ q ∈ p :: row, q.char.utf8Size = 1) :
    ((p :: row).getLast (List.cons_ne_nil p row)).offset = p.offset + row.length := by
  induction row generalizing p with
  | nil => rfl
  | cons q row ih =>
    obtain ⟨hnext, hrow⟩ := List.isChain_cons_cons.1 hrow
    have hq := hnext.offset_eq
    rw [hsize p List.mem_cons_self] at hq
    rw [List.getLast_cons (List.cons_ne_nil q row),
      ih hrow fun r hr => hsize r (List.mem_cons_of_mem p hr), hq, List.length_cons]
    omega

/-! ## Spans -/

/-- The span of emphasis in a passage: from the first place that it takes out to the last one. -/
def Passage.span (p : Passage text) (e : Emphasis text) : Span where
  strong := e.opening.length == 2
  first := ((p.taken e).head?.map (·.offset)).getD 0
  last := ((p.taken e).getLast?.map fun last => last.offset + last.char.utf8Size).getD 0

/-- The emphasis of a document, reported as spans. -/
def emphasisSpans (text : List Char) : List Span :=
  let o := outline text
  o.passages.flatMap fun p => ((chains o.labels p).flatMap (emphases [])).map p.span

theorem Passage.last_span_le (p : Passage text) (e : Emphasis text) :
    (p.span e).last ≤ byteLength text := by
  show ((p.taken e).getLast?.map fun last => last.offset + last.char.utf8Size).getD 0 ≤ _
  cases (p.taken e).getLast? with
  | none => exact Nat.zero_le _
  | some last => exact last.offset_add_le

/-- The spans of the emphasis of a document lie inside of it. -/
theorem last_le_of_mem_emphasisSpans {e : Span} (h : e ∈ emphasisSpans text) :
    e.last ≤ byteLength text := by
  obtain ⟨p, -, h⟩ := List.mem_flatMap.1 h
  obtain ⟨e, -, rfl⟩ := List.mem_map.1 h
  exact p.last_span_le e

/-- A text without stars and low lines has no emphasis. -/
theorem emphasisSpans_eq_nil (hstar : '*' ∉ text) (hlow : '_' ∉ text) :
    emphasisSpans text = [] := by
  refine List.eq_nil_iff_forall_not_mem.2 fun span hspan => ?_
  obtain ⟨p, hp, hspan⟩ := List.mem_flatMap.1 hspan
  obtain ⟨e, he, -⟩ := List.mem_map.1 hspan
  obtain ⟨chain, hchain, he⟩ := List.mem_flatMap.1 he
  -- emphasis needs a mark to open it
  have hlength := (isOrdered_of_mem_chain (isOrdered_of_mem_passages hp) hchain e he).length
  have hpos : 0 < e.opening.length := by omega
  obtain ⟨mark, -, -⟩ := List.exists_cons_of_length_pos hpos
  rcases mark.marked with h | h
  · exact hstar (h ▸ mark.char_mem)
  · exact hlow (h ▸ mark.char_mem)

/-- The marks of a span that reaches from one row of places to another one. -/
theorem marks_of_rows {start more : List Char} {c : Char} (h : text = start ++ c :: more)
    {a b : Place text} {opening closing : List (Place text)} (ho : (a :: opening).IsChain Next)
    (hc : (b :: closing).IsChain Next) (hlength : closing.length = opening.length)
    (hbefore : ∀ p ∈ a :: opening, ∀ q ∈ b :: closing, Before p q)
    (hsize : ∀ p ∈ a :: opening ++ b :: closing, p.char.utf8Size = 1) {e : Span}
    (hwidth : e.width = opening.length + 1) (hfirst : e.first = a.offset)
    (hlast : e.last = b.offset + (closing.length + 1)) :
    e.marks (byteLength start) = true ↔
      start.length ∈ (a :: opening ++ b :: closing).map (·.position) := by
  have hsizeo (p : Place text) (hp : p ∈ a :: opening) : p.char.utf8Size = 1 :=
    hsize p (List.mem_append_left _ hp)
  have hsizec (p : Place text) (hp : p ∈ b :: closing) : p.char.utf8Size = 1 :=
    hsize p (List.mem_append_right _ hp)
  -- the last opening mark ends in front of the first closing one
  have hgap : a.offset + (opening.length + 1) ≤ b.offset := by
    have hmem := List.getLast_mem (List.cons_ne_nil a opening)
    have hle := (hbefore _ hmem b List.mem_cons_self).offset_add_le
    rwa [hsizeo _ hmem, offset_getLast ho hsizeo] at hle
  have hlong : 2 * e.width ≤ e.last - e.first := by omega
  have hends : e.last - e.width = b.offset := by omega
  rw [Span.marks, decide_eq_true hlong, Bool.true_and, hends, List.map_append, List.mem_append,
    mem_row_iff h ho hsizeo, mem_row_iff h hc hsizec, Bool.or_eq_true, within, within,
    Bool.and_eq_true, Bool.and_eq_true, decide_eq_true_eq, decide_eq_true_eq, decide_eq_true_eq,
    decide_eq_true_eq, hfirst, hwidth, hlast]

/-- The marks of a span are the places that emphasis takes out. -/
theorem marks_span {start more : List Char} {c : Char} (h : text = start ++ c :: more)
    {p : Passage text} (hp : p.IsOrdered) {e : Emphasis text} (he : e.IsOrdered) :
    (p.span e).marks (byteLength start) = true ↔
      start.length ∈ (p.taken e).map (·.position) := by
  obtain ⟨hclosing, hlength, hbefore, hsizec⟩ := he.closing_spec hp
  have hsizeo (q : Place text) (hq : q ∈ marked e.opening) : q.char.utf8Size = 1 := by
    obtain ⟨mark, -, rfl⟩ := List.mem_map.1 hq
    exact mark.utf8Size_char
  have hmarked : (marked e.opening).length = e.opening.length := List.length_map _
  obtain ⟨a, opening, ho⟩ : ∃ a opening, marked e.opening = a :: opening := by
    refine List.exists_cons_of_length_pos ?_
    rcases he.length with hl | hl <;> omega
  obtain ⟨b, closing, hc⟩ : ∃ b closing, p.closing e = b :: closing := by
    refine List.exists_cons_of_length_pos ?_
    rcases he.length with hl | hl <;> omega
  have hopening := he.opening
  rw [ho] at hopening hbefore hsizeo hmarked
  rw [hc] at hclosing hbefore hsizec hlength
  have htaken : p.taken e = a :: opening ++ b :: closing := by rw [taken_eq, ho, hc]
  rw [List.length_cons] at hmarked hlength
  have hwidth : (p.span e).width = opening.length + 1 := by
    rw [hmarked]
    show (if e.opening.length == 2 then 2 else 1) = _
    rcases he.length with hl | hl <;> rw [hl] <;> rfl
  have hfirst : (p.span e).first = a.offset := by
    show ((p.taken e).head?.map (·.offset)).getD 0 = _
    rw [htaken]
    rfl
  have hlast : (p.span e).last = b.offset + (closing.length + 1) := by
    show ((p.taken e).getLast?.map fun last => last.offset + last.char.utf8Size).getD 0 = _
    rw [htaken, List.getLast?_append_of_ne_nil _ (List.cons_ne_nil b closing),
      List.getLast?_eq_some_getLast (List.cons_ne_nil b closing), Option.map_some, Option.getD_some,
      offset_getLast hclosing hsizec, hsizec _ (List.getLast_mem _), Nat.add_assoc]
  rw [htaken]
  exact marks_of_rows h hopening hclosing (by omega) hbefore
    (fun q hq => (List.mem_append.1 hq).elim (hsizeo q) (hsizec q)) hwidth hfirst hlast

/-! ## The text without markup -/

theorem unmarked_eq {p q : ℕ → Bool}
    (h : ∀ start c more, text = start ++ c :: more → p (byteLength start) = q start.length) :
    unmarked p 0 text = (text.zipIdx.filter fun x => !q x.2).map (·.1) := by
  have key : ∀ start s : List Char, text = start ++ s → unmarked p (byteLength start) s =
      ((s.zipIdx start.length).filter fun x => !q x.2).map (·.1) := by
    intro start s hs
    induction s generalizing start with
    | nil => rfl
    | cons c s ih =>
      have hrest := ih (start ++ [c]) (by rw [hs, List.append_assoc]; rfl)
      rw [byteLength_append, byteLength_cons, List.length_append] at hrest
      rw [unmarked, h start c s hs, List.zipIdx_cons, List.filter_cons]
      cases q start.length with
      | true => exact hrest
      | false => exact congrArg (c :: ·) hrest
  exact key [] text rfl

/-- What the spans of emphasis mark is what emphasis takes out. -/
theorem any_marks_emphasisSpans {start more : List Char} {c : Char} (h : text = start ++ c :: more) :
    (emphasisSpans text).any (·.marks (byteLength start)) =
      ((allEmphasis text).map (·.position)).contains start.length := by
  have hordered (p : Passage text) (hp : p ∈ (outline text).passages) (e : Emphasis text)
      (he : e ∈ (chains (outline text).labels p).flatMap (emphases [])) :
      (p.span e).marks (byteLength start) = true ↔ start.length ∈ (p.taken e).map (·.position) := by
    obtain ⟨chain, hchain, he⟩ := List.mem_flatMap.1 he
    have hpassage := isOrdered_of_mem_passages hp
    exact marks_span h hpassage (isOrdered_of_mem_chain hpassage hchain e he)
  rw [Bool.eq_iff_iff, List.any_eq_true, List.contains_iff_mem]
  constructor
  · rintro ⟨span, hspan, hmark⟩
    obtain ⟨p, hp, hspan⟩ := List.mem_flatMap.1 hspan
    obtain ⟨e, he, rfl⟩ := List.mem_map.1 hspan
    obtain ⟨place, hplace, hposition⟩ := List.mem_map.1 ((hordered p hp e he).1 hmark)
    exact List.mem_map.2
      ⟨place, List.mem_flatMap.2 ⟨p, hp, List.mem_flatMap.2 ⟨e, he, hplace⟩⟩, hposition⟩
  · intro hmem
    obtain ⟨place, hplace, hposition⟩ := List.mem_map.1 hmem
    obtain ⟨p, hp, hplace⟩ := List.mem_flatMap.1 hplace
    obtain ⟨e, he, hplace⟩ := List.mem_flatMap.1 hplace
    exact ⟨p.span e, List.mem_flatMap.2 ⟨p, hp, List.mem_map_of_mem he⟩,
      (hordered p hp e he).2 (List.mem_map.2 ⟨place, hplace, hposition⟩)⟩

/-- The text without the spans of its emphasis. -/
theorem withoutMarkup?_emphasisSpans (text : List Char) :
    withoutMarkup? emphasisSpans text = some (withoutMarkup text) := by
  rw [withoutMarkup?_eq fun e he => last_le_of_mem_emphasisSpans he, withoutMarkup, without,
    unmarked_eq fun _ _ _ h => any_marks_emphasisSpans h]

end Acceptance.Markup
