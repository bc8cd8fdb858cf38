import Mathlib.Data.List.Forall2
import Acceptance.Proofs.Source.Padding
import Acceptance.Proofs.Source.Position

/-!
# Cutting attributes off a line

The attribute lists in front of a header are cut off both views of a line, at an offset that is found
in the masked one. The views of a line can differ in length, because a hidden carriage return is no
part of the line end. But the lists end with a bracket, which is not hidden, and up to there the two
views have the same offsets.

Main results:

* `Veils.of_append_cons`: what is not hidden has the same offset in both texts.
* `exists_cut`: the raw line can be cut where the attribute lists of the masked line end.
* `routines?_ofChars`: every cut of the scan is possible.
-/

namespace Acceptance

open Text

namespace Source

/-! ## Hidden characters -/

/-- Whether a text shows each character of another one or hides its bytes. Line feeds are shown. -/
inductive Veils : List Char → List Char → Prop
  | nil : Veils [] []
  | shown (c : Char) {s m : List Char} (h : Veils s m) : Veils (c :: s) (c :: m)
  | hidden {c : Char} (hc : c ≠ '\n') {s m : List Char} (h : Veils s m) :
    Veils (c :: s) (List.replicate c.utf8Size ' ' ++ m)

namespace Veils

variable {s m t n : List Char}

theorem self (s : List Char) : Veils s s := by
  induction s with
  | nil => exact .nil
  | cons c s ih => exact .shown c ih

theorem append (hs : Veils s m) (ht : Veils t n) : Veils (s ++ t) (m ++ n) := by
  induction hs with
  | nil => exact ht
  | shown c _ ih => exact .shown c ih
  | hidden hc _ ih =>
    rw [List.cons_append, List.append_assoc]
    exact .hidden hc ih

theorem hide (s : List Char) : Veils s (Source.hide s) := by
  induction s with
  | nil => exact .nil
  | cons c s ih =>
    have hcons : Source.hide (c :: s) =
        (if c == '\n' then ['\n'] else List.replicate c.utf8Size ' ') ++ Source.hide s := rfl
    by_cases hc : c = '\n'
    · rw [hcons, hc]
      exact .shown '\n' ih
    · rw [hcons, if_neg (by simpa using hc)]
      exact .hidden hc ih

theorem token (t : Token) : Veils t.written t.masked := by
  cases t with
  | code c => exact .self [c]
  | name written => exact .self written
  | lineComment body => exact hide _
  | blockComment body closed => exact hide _
  | literal body closed => exact hide _

/-- The masked view of a source hides characters of it. -/
theorem mask (s : List Char) : Veils s (Source.mask s) := by
  have key : ∀ ts : List Token, Veils (ts.flatMap Token.written) (ts.flatMap Token.masked) := by
    intro ts
    induction ts with
    | nil => exact .nil
    | cons t ts ih => exact (token t).append ih
  have h := key (tokens s)
  rwa [flatMap_written_tokens] at h

/-- What is not hidden has the same offset in both texts. -/
theorem of_append_cons {c : Char} (hc : c ≠ ' ') {front rest : List Char}
    (h : Veils s (front ++ c :: rest)) :
    ∃ start more, s = start ++ c :: more ∧ byteLength start = byteLength front := by
  generalize hm : front ++ c :: rest = m at h
  induction h generalizing front with
  | nil => exact absurd hm (by simp)
  | @shown d s m _ ih =>
    cases front with
    | nil =>
      obtain ⟨rfl, -⟩ := List.cons.inj hm
      exact ⟨[], s, rfl, rfl⟩
    | cons e front =>
      obtain ⟨rfl, htail⟩ := List.cons.inj hm
      obtain ⟨start, more, rfl, hlen⟩ := ih htail
      exact ⟨e :: start, more, rfl, by rw [byteLength_cons, byteLength_cons, hlen]⟩
  | @hidden d _ s m _ ih =>
    -- the spaces stand in front of the character
    have hlen : byteLength (List.replicate d.utf8Size ' ') = d.utf8Size := by
      rw [← length_utf8, utf8_replicate_space, List.length_replicate]
    rcases List.append_eq_append_iff.1 hm with ⟨more, hfront, hbehind⟩ | ⟨more, rfl, hbehind⟩
    · cases more with
      | nil =>
        obtain ⟨start, more, rfl, hstart⟩ := @ih [] hbehind
        refine ⟨d :: start, more, rfl, ?_⟩
        rw [List.append_nil] at hfront
        rw [byteLength_cons, hstart, ← hfront, hlen]
        rfl
      | cons e more =>
        obtain ⟨rfl, -⟩ := List.cons.inj hbehind
        have hmem : c ∈ List.replicate d.utf8Size ' ' := by simp [hfront]
        exact absurd (List.eq_of_mem_replicate hmem) hc
    · obtain ⟨start, more', rfl, hstart⟩ := ih hbehind.symm
      refine ⟨d :: start, more', rfl, ?_⟩
      rw [byteLength_cons, hstart, byteLength_append, hlen]

theorem pieces_append {u : List Char} (hne : u ≠ []) (hu : '\n' ∉ u) (m : List Char) :
    pieces (u ++ m) = match pieces m with
      | [] => [u]
      | piece :: more => (u ++ piece) :: more := by
  induction u with
  | nil => exact absurd rfl hne
  | cons c u ih =>
    have hc : c ≠ '\n' := fun h => hu (h ▸ List.mem_cons_self)
    rw [List.cons_append, pieces_cons hc]
    by_cases hn : u = []
    · subst hn
      rfl
    · rw [ih hn fun h => hu (List.mem_cons_of_mem c h)]
      cases pieces m <;> rfl

/-- The lines of the texts hide each other one by one. -/
theorem pieces (h : Veils s m) : List.Forall₂ Veils (Text.pieces s) (Text.pieces m) := by
  induction h with
  | nil => exact .nil
  | @shown c s m _ ih =>
    by_cases hc : c = '\n'
    · rw [hc, pieces_newline, pieces_newline]
      exact .cons (.self _) ih
    · rw [pieces_cons hc, pieces_cons hc]
      generalize Text.pieces s = ps, Text.pieces m = qs at ih
      cases ih with
      | nil => exact .cons (.self _) .nil
      | cons hp hps => exact .cons (.shown c hp) hps
  | @hidden c hc s m _ ih =>
    have hne : List.replicate c.utf8Size ' ' ≠ [] := by
      simpa using (Char.utf8Size_pos c).ne'
    rw [pieces_cons hc, pieces_append hne fun h => absurd (List.eq_of_mem_replicate h) (by decide)]
    generalize Text.pieces s = ps, Text.pieces m = qs at ih
    cases ih with
    | nil =>
      have hone := hidden hc .nil
      rw [List.append_nil] at hone
      exact .cons hone .nil
    | cons hp hps => exact .cons (.hidden hc hp) hps

end Veils

/-! ## The two views of a line -/

theorem exists_withoutEnd (s : List Char) : ∃ ending, s = withoutEnd s ++ ending := by
  fun_induction withoutEnd s with
  | case1 => exact ⟨[], rfl⟩
  | case2 => exact ⟨['\n'], rfl⟩
  | case3 => exact ⟨['\r', '\n'], rfl⟩
  | case4 c rest _ _ ih =>
    obtain ⟨ending, he⟩ := ih
    exact ⟨ending, congrArg (c :: ·) he⟩

/-- Behind a bracket a line loses its end as it does on the whole. -/
theorem withoutEnd_append_cons (front rest : List Char) :
    withoutEnd (front ++ ']' :: rest) = front ++ ']' :: withoutEnd rest := by
  induction front with
  | nil => exact withoutEnd_cons (fun _ => by decide) fun h => absurd h (by decide)
  | cons c front ih =>
    rw [List.cons_append, withoutEnd_cons (by simp) fun _ h => ?_, ih]
    · rfl
    · have hmem : ']' ∈ ['\n'] := h ▸ by simp
      exact absurd hmem (by decide)

theorem of_mem_zipLines {R : List Char → List Char → Prop} {raws maskeds : List (List Char)}
    (h : List.Forall₂ R raws maskeds) {number : ℕ} {l : Line}
    (hl : l ∈ zipLines number raws maskeds) : R l.raw l.masked := by
  induction h generalizing number with
  | nil => cases hl
  | cons hR _ ih =>
    rw [zipLines] at hl
    rcases List.mem_cons.1 hl with rfl | hl
    · exact hR
    · exact ih hl

/-- What stands in front of a bracket of the masked view has as many bytes in the raw view. -/
theorem exists_raw_eq {s : List Char} {l : Line} (hl : l ∈ (ofChars s).lines)
    {front rest : List Char} (h : l.masked = front ++ ']' :: rest) :
    ∃ start more, l.raw = start ++ ']' :: more ∧ byteLength start = byteLength front := by
  have hlines : List.Forall₂ (fun raw masked => ∃ p q, Veils p q ∧ raw = withoutEnd p ∧
      masked = withoutEnd q) (Text.lines s) (Text.lines (mask s)) := by
    rw [← map_withoutEnd_pieces, ← map_withoutEnd_pieces, List.forall₂_map_left_iff,
      List.forall₂_map_right_iff]
    exact (Veils.mask s).pieces.imp fun p q hpq => ⟨p, q, hpq, rfl, rfl⟩
  obtain ⟨p, q, hveils, hraw, hmasked⟩ := of_mem_zipLines hlines hl
  obtain ⟨ending, hq⟩ := exists_withoutEnd q
  rw [← hmasked, h, List.append_assoc, List.cons_append] at hq
  rw [hq] at hveils
  obtain ⟨start, more, rfl, hlen⟩ := hveils.of_append_cons (by decide)
  exact ⟨start, withoutEnd more, by rw [hraw, withoutEnd_append_cons], hlen⟩

/-! ## Attribute lists -/

theorem suffix_of_afterAttribute? {s rest : List Char} (h : afterAttribute? s = some rest) :
    ']' :: rest <:+ s := by
  rw [afterAttribute?_eq, Option.bind_eq_some_iff] at h
  obtain ⟨inner, ho, hc⟩ := h
  rw [← char?_eq_some_iff.1 hc]
  exact (List.dropWhile_suffix _).trans ((char?_suffix ho).trans (skipBlanks_suffix s))

/-- The attribute lists at the start of a text end with a bracket. -/
theorem suffix_afterAttributes {s rest : List Char} (h : afterAttribute? s = some rest) :
    ']' :: afterAttributes s <:+ s := by
  fun_induction afterAttributes s generalizing rest with
  | case1 s next h' ih =>
    have hs := suffix_of_afterAttribute? h'
    cases hn : afterAttribute? next with
    | none =>
      rw [afterAttributes, hn]
      exact hs
    | some more => exact (ih hn).trans ((List.suffix_cons ']' next).trans hs)
  | case2 s h' => rw [h'] at h; cases h

/-- A line is cut into its attribute lists, which end with a bracket, and the rest, unless it is all
attributes. -/
theorem splitAttributes_eq {m lists rest : List Char} (h : splitAttributes m = (lists, rest)) :
    m = lists ++ rest ∧ (rest = [] ∨ ∃ front, lists = front ++ [']']) := by
  rw [splitAttributes] at h
  cases hm : afterAttribute? m with
  | none =>
    rw [hm] at h
    obtain ⟨rfl, rfl⟩ := Prod.mk.inj h
    exact ⟨(List.append_nil m).symm, .inl rfl⟩
  | some next =>
    rw [hm] at h
    obtain ⟨rfl, rfl⟩ := Prod.mk.inj h
    obtain ⟨front, hfront⟩ := suffix_afterAttributes hm
    have hlists : m.take (m.length - (afterAttributes m).length) = front ++ [']'] := by
      have hsplit : m = (front ++ [']']) ++ afterAttributes m := by
        rw [List.append_assoc, List.singleton_append, hfront]
      have hlen := congrArg List.length hsplit
      rw [List.length_append] at hlen
      rw [hlen, Nat.add_sub_cancel]
      conv_lhs => rw [hsplit]
      exact List.take_left
    rw [hlists, List.append_assoc, List.singleton_append, hfront]
    exact ⟨rfl, .inr ⟨front, rfl⟩⟩

/-- Where a line has more than its attribute lists, both views of it can be cut behind them. -/
theorem exists_cut {s : List Char} {l : Line} (hl : l ∈ (ofChars s).lines)
    {lists rest : List Char} (h : splitAttributes l.masked = (lists, rest)) :
    takeBytes? (byteLength lists) l.masked = some lists ∧
      dropBytes? (byteLength lists) l.masked = some rest ∧
      (allBlank rest = false → ∃ more, dropBytes? (byteLength lists) l.raw = some more) := by
  obtain ⟨hm, hlists⟩ := splitAttributes_eq h
  refine ⟨?_, ?_, fun hrest => ?_⟩
  · rw [hm]
    exact takeBytes?_append lists rest
  · rw [hm]
    exact dropBytes?_append lists rest
  · obtain rfl | ⟨front, rfl⟩ := hlists
    · cases hrest
    rw [List.append_assoc, List.singleton_append] at hm
    obtain ⟨start, more, hraw, hlen⟩ := exists_raw_eq hl hm
    refine ⟨more, ?_⟩
    have hoffset : byteLength (front ++ [']']) = byteLength (start ++ [']']) := by
      rw [byteLength_append, byteLength_append, hlen]
    have hsplit : start ++ ']' :: more = (start ++ [']']) ++ more := by simp
    rw [hraw, hoffset, hsplit]
    exact dropBytes?_append _ more

/-! ## The scan -/

namespace ScanState

/-- The state after a line that is not inside a body, with every cut checked. -/
def readOutside? (s : ScanState) (line : Line) : Option ScanState :=
  if (skipBlanks line.masked).head? == some '[' then do
    let split := byteLength (splitAttributes line.masked).1
    let names := attributeNames (← takeBytes? split line.masked)
    let s := { s with
      attributes := s.attributes ++ names
      testLine := if names.any marksTest then some line.number else s.testLine }
    let rest ← dropBytes? split line.masked
    if allBlank rest then return s
    else return readOutside.readHeader s line.number (← dropBytes? split line.raw) rest
  else return readOutside.readHeader s line.number line.raw line.masked

/-- The state after a line and the routine that ends by it, with every cut checked. -/
def read? (s : ScanState) (line : Line) : Option (ScanState × Option Routine) :=
  match s.opened with
  | some o =>
    let delta := blockDelta line.masked
    if delta ≠ 0 ∨ o.started then
      let depth := o.depth + delta
      if depth ≤ 0 then
        return ({ s with opened := none }, some { o.routine with endLine := line.number })
      else return ({ s with opened := some ⟨o.routine, depth, true⟩ }, none)
    else if isHeader line.masked then do
      let ended := { o.routine with endLine := max (line.number - 1) o.routine.headerLine }
      return (← readOutside? { s with opened := none } line, some ended)
    else return (s, none)
  | none => return (← readOutside? s line, none)

/-- The routines that end by the lines from here on, with every cut checked. -/
def scan? (s : ScanState) (last : ℕ) : List Line → Option (List Routine)
  | [] => some (s.finish last).toList
  | line :: rest => do
    let (s, ended) ← s.read? line
    return ended.toList ++ (← scan? s line.number rest)

variable {code : List Char} {l : Line}

theorem readOutside?_eq (hl : l ∈ (ofChars code).lines) (s : ScanState) :
    s.readOutside? l = some (s.readOutside l) := by
  cases h : splitAttributes l.masked with | mk lists rest => ?_
  obtain ⟨htake, hdrop, hraw⟩ := exists_cut hl h
  rw [readOutside?, readOutside, h]
  split
  · simp only [htake, hdrop, Option.bind_eq_bind, Option.bind_some]
    cases hrest : allBlank rest with
    | true => rfl
    | false =>
      obtain ⟨more, hmore⟩ := hraw hrest
      rw [hmore]
      rfl
  · rfl

theorem read?_eq (hl : l ∈ (ofChars code).lines) (s : ScanState) : s.read? l = some (s.read l) := by
  rw [read?, read]
  cases s.opened with
  | none =>
    simp only [readOutside?_eq hl]
    rfl
  | some o =>
    simp only [readOutside?_eq hl]
    split_ifs <;> rfl

theorem scan?_eq {ls : List Line} (h : ∀ l ∈ ls, l ∈ (ofChars code).lines) (s : ScanState)
    (last : ℕ) : s.scan? last ls = some (s.scan last ls) := by
  induction ls generalizing s last with
  | nil => rfl
  | cons l ls ih =>
    rw [scan?, scan, read?_eq (h l List.mem_cons_self)]
    simp only [Option.bind_eq_bind, Option.bind_some,
      ih fun k hk => h k (List.mem_cons_of_mem l hk)]
    rfl

end ScanState

/-- The routines of a source, with every cut checked. -/
def routines? (s : Source) : Option (List Routine) := ScanState.start.scan? 0 s.lines

/-- Every cut of the scan is possible. -/
theorem routines?_ofChars (code : List Char) :
    (ofChars code).routines? = some (ofChars code).routines :=
  ScanState.scan?_eq (fun _ h => h) _ _

end Source

end Acceptance
