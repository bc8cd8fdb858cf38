import Mathlib.Data.List.Infix
import Acceptance.Proofs.Source.Keyword
import Acceptance.Proofs.Source.Lines
import Acceptance.Proofs.Source.Report

/-!
# Where a body closes and where its routine ends

A body closes with the keyword at which the count of levels, word by word from the header line on,
returns to zero. The scan counts line by line: it leaves out the header line, looks at the sum over
each later line, and takes the body for begun with the first sum that is not zero. So a body that
opens and closes on one line does not count, keywords on the header line are missing from the count,
and keywords behind the closing one on its line can keep the routine open.

Main results:

* `endLine_eq_iff_endsWith`: the line on which a routine ends.
* `sum_pos`: a count that has not returned to zero is above it.
* `endLine_eq_iff_closes`: when a routine ends on the line on which its body closes.
-/

namespace Acceptance.Source

open Text

/-! ## Specification -/

/-- The changes of level by the words of a line, besides its quoted names. -/
def Line.changes (l : Line) : List ℤ := levelChanges (withoutNames l.masked)

/-- The changes of level by the words of some lines. -/
def changesOf (lines : List Line) : List ℤ := lines.flatMap Line.changes

/-- Whether a count from zero on has returned to zero. -/
def HasReturned (changes : List ℤ) : Prop :=
  ∃ part ∈ changes.inits, part ≠ [] ∧ part.sum = 0

instance (changes : List ℤ) : Decidable (HasReturned changes) := by
  unfold HasReturned
  infer_instance

/-- Whether the body behind a header closes on the last of the given lines: its first keyword opens a
level, before or with that keyword no other header comes, and the first keyword that leads the count
back to zero stands on the last line. -/
structure Closes (header : Line) (body : List Line) : Prop where
  opening : (changesOf (header :: body)).head? = some 1
  own : ∀ (i : ℕ) (h : i < body.length), changesOf (header :: body.take i) = [] →
    isHeader body[i].rest = false
  not_before : ¬ HasReturned (changesOf (header :: body).dropLast)
  closing : HasReturned (changesOf (header :: body))

instance (header : Line) (body : List Line) : Decidable (Closes header body) :=
  decidable_of_iff ((changesOf (header :: body)).head? = some 1 ∧
      (∀ (i : ℕ) (h : i < body.length), changesOf (header :: body.take i) = [] →
        isHeader body[i].rest = false) ∧
      ¬ HasReturned (changesOf (header :: body).dropLast) ∧
      HasReturned (changesOf (header :: body)))
    ⟨fun h => ⟨h.1, h.2.1, h.2.2.1, h.2.2.2⟩,
      fun h => ⟨h.opening, h.own, h.not_before, h.closing⟩⟩

/-- Whether a routine ends with the last of the lines behind its header, or on the header line if
there are none: these lines have changed the level and leave none open, or else the source ends
there or another header follows before the level has changed. -/
def EndsWith (body back : List Line) : Prop :=
  ¬ HasEnded body.dropLast ∧
    ((hasBegun body = true ∧ level body ≤ 0) ∨
      ¬ HasEnded body ∧ ∀ next ∈ back.head?,
        hasBegun (body ++ [next]) = false ∧ isHeader next.masked = true)

instance (body back : List Line) : Decidable (EndsWith body back) := by
  unfold EndsWith
  infer_instance

/-! ## The end of a routine -/

theorem hasEnded_of_prefix {body more : List Line} (h : HasEnded body) : HasEnded (body ++ more) := by
  obtain ⟨front, l, back, rfl, hl⟩ := h
  exact ⟨front, l, back ++ more, by simp, hl⟩

theorem not_hasEnded_dropLast {body : List Line} (h : ¬ HasEnded body) :
    ¬ HasEnded body.dropLast := by
  rcases List.eq_nil_or_concat body with rfl | ⟨front, l, rfl⟩
  · exact h
  · rw [List.concat_eq_append] at h ⊢
    rw [List.dropLast_concat]
    exact mt hasEnded_of_prefix h

/-- Every routine ends somewhere. -/
theorem exists_endsWith (lines : List Line) :
    ∃ body back, lines = body ++ back ∧ EndsWith body back := by
  by_cases h : HasEnded lines
  · obtain ⟨front, l, back, rfl, hfront, hl⟩ := h.exists_first
    unfold Ends at hl
    by_cases hb : hasBegun (front ++ [l]) = true
    · rw [if_pos hb] at hl
      refine ⟨front ++ [l], back, by simp, ?_, .inl ⟨hb, hl⟩⟩
      rwa [List.dropLast_concat]
    · rw [if_neg hb] at hl
      refine ⟨front, l :: back, rfl, not_hasEnded_dropLast hfront, .inr ⟨hfront, ?_⟩⟩
      rintro next ⟨⟩
      exact ⟨Bool.not_eq_true _ ▸ hb, hl⟩
  · refine ⟨lines, [], (List.append_nil _).symm, not_hasEnded_dropLast h, .inr ⟨h, ?_⟩⟩
    rintro next ⟨⟩

namespace ScanState

variable {s : ScanState} {r : Routine} {body : List Line} {l : Line}

theorem scan_body (hs : s.opened = some ⟨r, 0, false⟩) (h : ¬ HasEnded body) (last : ℕ)
    (back : List Line) :
    s.scan last (body ++ back) = (s.run body).1.scan (lastNumber last body) back := by
  rw [scan_append, run_body_ended hs h, List.nil_append]

/-- The routine ends with the first line that ends it, or before that line if it is a header. -/
theorem scan_of_ends (hs : s.opened = some ⟨r, 0, false⟩) (h : ¬ HasEnded body) (hl : Ends body l)
    (last : ℕ) (back : List Line) :
    ∃ later, s.scan last (body ++ l :: back) =
      { r with
        endLine := if hasBegun (body ++ [l]) then l.number
          else max (l.number - 1) r.headerLine } :: later := by
  have hopen := run_body hs h
  rw [scan_body hs h, scan]
  unfold Ends at hl
  by_cases hb : hasBegun (body ++ [l]) = true
  · rw [if_pos hb, level_concat] at hl
    have hd : blockDelta l.masked ≠ 0 ∨ hasBegun body = true := by
      rw [hasBegun_concat, Bool.or_eq_true, bne_iff_ne] at hb
      exact hb.symm
    rw [read_of_le hopen l hd hl, if_pos hb]
    exact ⟨_, rfl⟩
  · rw [if_neg hb] at hl
    have hh : ¬ (⟨r, level body, hasBegun body⟩ : OpenRoutine).Holds l := by
      rw [holds_iff, not_not]
      exact ⟨Bool.not_eq_true _ ▸ hb, hl⟩
    rw [read_of_not_holds hopen hh, if_neg hb]
    exact ⟨_, rfl⟩

/-- A routine that no line ends ends with the source. -/
theorem scan_of_not_hasEnded (hs : s.opened = some ⟨r, 0, false⟩) (h : ¬ HasEnded body) (last : ℕ) :
    s.scan last body = [{ r with endLine := max (lastNumber last body) r.headerLine }] := by
  have := scan_body hs h last []
  rw [List.append_nil] at this
  rw [this, scan, finish, run_body hs h]
  rfl

end ScanState

section Extent

variable {src : Source} {before body back : List Line} {header : Line} {r : Routine}

theorem lastNumber_eq (h : src.lines = before ++ header :: (body ++ back)) :
    ScanState.lastNumber header.number body = header.number + body.length := by
  have hheader := number_of_zipLines_eq (h : zipLines _ _ _ = _)
  rcases List.eq_nil_or_concat body with rfl | ⟨front, l, rfl⟩
  · rfl
  · rw [List.concat_eq_append] at h ⊢
    have hl : src.lines = (before ++ header :: front) ++ l :: back := by simpa using h
    have hlast := number_of_zipLines_eq (hl : zipLines _ _ _ = _)
    rw [ScanState.lastNumber, List.getLast?_concat]
    simp only [List.length_append, List.length_cons, List.length_nil, Option.map_some,
      Option.getD_some] at hlast ⊢
    omega

theorem number_of_next {next : Line} {rest : List Line}
    (h : src.lines = before ++ header :: (body ++ next :: rest)) :
    next.number = header.number + body.length + 1 := by
  have hheader := number_of_zipLines_eq (h : zipLines _ _ _ = _)
  have hn : src.lines = (before ++ header :: body) ++ next :: rest := by simpa using h
  have hnext := number_of_zipLines_eq (hn : zipLines _ _ _ = _)
  simp only [List.length_append, List.length_cons] at hnext
  omega

/-- What is open behind the header line of a reported routine. -/
theorem scan_of_header (h : src.lines = before ++ header :: (body ++ back))
    (hr : r ∈ src.routines) (hn : r.headerLine = header.number) :
    ∃ s : ScanState, ∃ q later, s.opened = some ⟨q, 0, false⟩ ∧ q.headerLine = header.number ∧
      s.scan header.number (body ++ back) = r :: later := by
  obtain ⟨o, ending, later, ho, hq, hscan⟩ := scan_of_headerLine h hr hn
  obtain ⟨hfree, -⟩ := (exists_routine_iff h fun _ _ => True).1 ⟨r, hr, hn, trivial⟩
  have hread := ScanState.read_of_free hfree
  obtain ⟨hline, hdepth, hstarted⟩ := ScanState.opened_readOutside rfl (hread ▸ ho)
  refine ⟨_, o.routine, later, ?_, hline, hscan⟩
  rw [ho, ← hdepth, ← hstarted]

theorem endLine_of_endsWith (h : src.lines = before ++ header :: (body ++ back))
    (hr : r ∈ src.routines) (hn : r.headerLine = header.number) (he : EndsWith body back) :
    r.endLine = ScanState.lastNumber header.number body := by
  obtain ⟨s, q, later, hs, hq, hscan⟩ := scan_of_header h hr hn
  have hlast := lastNumber_eq h
  have head {p : Routine} {more : List Routine} (hp : r :: later = p :: more) :
      r.endLine = p.endLine := congrArg Routine.endLine (List.cons.inj hp).1
  obtain ⟨hbefore, ⟨hb, hl⟩ | ⟨hnot, hnext⟩⟩ := he
  · -- the last line closes what the lines have opened
    rcases List.eq_nil_or_concat body with rfl | ⟨front, l, rfl⟩
    · cases hb
    rw [List.concat_eq_append] at *
    rw [List.dropLast_concat] at hbefore
    have hends : Ends front l := by
      rw [Ends, if_pos hb]
      exact hl
    obtain ⟨more, hmore⟩ := ScanState.scan_of_ends hs hbefore hends header.number back
    rw [List.append_assoc] at hscan
    rw [head (hscan.symm.trans hmore), if_pos hb, ScanState.lastNumber, List.getLast?_concat]
    rfl
  · cases back with
    | nil =>
      have hmore := ScanState.scan_of_not_hasEnded hs hnot header.number
      rw [List.append_nil] at hscan
      rw [head (hscan.symm.trans hmore), hq]
      show max _ _ = _
      omega
    | cons next rest =>
      obtain ⟨hb, hheader⟩ := hnext next rfl
      have hends : Ends body next := by
        rw [Ends, if_neg (by simp [hb])]
        exact hheader
      obtain ⟨more, hmore⟩ := ScanState.scan_of_ends hs hnot hends header.number rest
      have hnumber := number_of_next h
      rw [head (hscan.symm.trans hmore), if_neg (by simp [hb]), hq]
      show max (next.number - 1) header.number = _
      omega

/-- The line on which a routine ends. -/
theorem endLine_eq_iff_endsWith (h : src.lines = before ++ header :: (body ++ back))
    (hr : r ∈ src.routines) (hn : r.headerLine = header.number) :
    r.endLine = ScanState.lastNumber header.number body ↔ EndsWith body back := by
  refine ⟨fun he => ?_, endLine_of_endsWith h hr hn⟩
  obtain ⟨body', back', heq, hends⟩ := exists_endsWith (body ++ back)
  have h' : src.lines = before ++ header :: (body' ++ back') := heq ▸ h
  have hlast := endLine_of_endsWith h' hr hn hends
  have hlen : body.length = body'.length := by
    rw [lastNumber_eq h] at he
    rw [lastNumber_eq h'] at hlast
    omega
  obtain ⟨rfl, rfl⟩ := List.append_inj heq hlen
  exact hends

end Extent

/-! ## Counting words -/

theorem mem_levelChanges {s : List Char} {change : ℤ} (h : change ∈ levelChanges s) :
    change = 1 ∨ change = -1 := by
  obtain ⟨p, -, hp⟩ := List.mem_filterMap.1 h
  rw [wordChange?] at hp
  split_ifs at hp
  · exact .inl (Option.some.inj hp).symm
  · exact .inr (Option.some.inj hp).symm

theorem mem_changesOf {lines : List Line} {change : ℤ} (h : change ∈ changesOf lines) :
    change = 1 ∨ change = -1 := by
  obtain ⟨l, -, hl⟩ := List.mem_flatMap.1 h
  exact mem_levelChanges hl

theorem changesOf_append (lines more : List Line) :
    changesOf (lines ++ more) = changesOf lines ++ changesOf more := List.flatMap_append

theorem level_eq_sum (lines : List Line) : level lines = (changesOf lines).sum := by
  induction lines with
  | nil => rfl
  | cons l lines ih =>
    rw [changesOf, List.flatMap_cons, List.sum_append, ← changesOf, ← ih, Line.changes,
      ← blockDelta_eq_sum, level, List.map_cons, List.sum_cons]
    rfl

theorem hasReturned_iff {changes : List ℤ} :
    HasReturned changes ↔ ∃ part more, changes = part ++ more ∧ part ≠ [] ∧ part.sum = 0 := by
  unfold HasReturned
  constructor
  · rintro ⟨part, hp, hne, hsum⟩
    obtain ⟨more, rfl⟩ := (List.mem_inits part changes).1 hp
    exact ⟨part, more, rfl, hne, hsum⟩
  · rintro ⟨part, more, rfl, hne, hsum⟩
    exact ⟨part, (List.mem_inits _ _).2 (List.prefix_append _ _), hne, hsum⟩

theorem HasReturned.append {changes : List ℤ} (h : HasReturned changes) (more : List ℤ) :
    HasReturned (changes ++ more) := by
  obtain ⟨part, rest, rfl, hne, hsum⟩ := hasReturned_iff.1 h
  exact hasReturned_iff.2 ⟨part, rest ++ more, by simp, hne, hsum⟩

/-- A count that goes up first and has not returned to zero is above it. -/
theorem sum_pos {changes : List ℤ} (hfirst : changes.head? = some 1)
    (hstep : ∀ c ∈ changes, c = 1 ∨ c = -1) (h : ¬ HasReturned changes) : 0 < changes.sum := by
  induction changes using List.reverseRecOn with
  | nil => cases hfirst
  | append_singleton changes c ih =>
    have hne : (changes ++ [c]).sum ≠ 0 := fun hs =>
      h (hasReturned_iff.2 ⟨_, [], (List.append_nil _).symm, by simp, hs⟩)
    rw [List.sum_append, List.sum_singleton] at hne ⊢
    rcases List.eq_nil_or_concat changes with rfl | hcons
    · obtain rfl : c = 1 := Option.some.inj hfirst
      decide
    · have hhead : changes.head? = some 1 := by
        obtain ⟨d, rest, rfl⟩ := List.exists_cons_of_ne_nil (l := changes) (by
          rintro rfl
          obtain ⟨start, last, he⟩ := hcons
          simp at he)
        exact hfirst
      have hpos := ih hhead (fun d hd => hstep d (List.mem_append_left _ hd))
        fun hr => h (hr.append [c])
      have hc := hstep c (List.mem_append_right _ List.mem_cons_self)
      omega

/-! ## Bodies behind a header line without keywords -/

theorem hasBegun_of_level_ne {lines : List Line} (h : level lines ≠ 0) : hasBegun lines = true := by
  by_contra hb
  rw [hasBegun, List.any_eq_true] at hb
  push Not at hb
  refine h (List.sum_eq_zero fun d hd => ?_)
  obtain ⟨l, hl, rfl⟩ := List.mem_map.1 hd
  simpa using hb l hl

theorem changesOf_ne_nil {lines : List Line} (h : hasBegun lines = true) : changesOf lines ≠ [] := by
  obtain ⟨l, hl, hd⟩ := List.any_eq_true.1 h
  intro hn
  have hempty : l.changes = [] := List.flatMap_eq_nil_iff.1 hn l hl
  rw [blockDelta_eq_sum, ← Line.changes, hempty] at hd
  exact absurd hd (by decide)

theorem Line.isHeader_rest {l : Line} (h : isHeader l.masked = true) : isHeader l.rest = true := by
  have hb : ¬ opensBracket l.masked = true := fun hb => by
    rw [isHeader_of_opensBracket hb] at h
    cases h
  rw [Line.rest, if_neg hb]
  exact h

section Closes

variable {header : Line} {front : List Line} {l : Line}

/-- No other header comes before or with the first keyword. -/
theorem Closes.not_isHeader {body : List Line} (h : Closes header body) (hh : header.changes = [])
    {lines back : List Line} {k : Line} (hs : body = lines ++ k :: back)
    (hn : changesOf lines = []) : isHeader k.masked = false := by
  subst hs
  have hown := h.own lines.length (by simp)
  rw [List.take_left', List.getElem_append_right (le_refl _)] at hown
  · simp only [Nat.sub_self, List.getElem_cons_zero] at hown
    have hempty : changesOf (header :: lines) = [] := by
      rw [changesOf, List.flatMap_cons, hh, ← changesOf, hn]
      rfl
    have := hown hempty
    by_contra hk
    rw [Line.isHeader_rest (Bool.not_eq_false _ ▸ hk)] at this
    cases this
  · rfl

/-- Before the last line the words have opened a level or done nothing. -/
theorem Closes.level_pos (h : Closes header (front ++ [l])) (hh : header.changes = [])
    {lines back : List Line} (hs : front = lines ++ back) (hne : changesOf lines ≠ []) :
    0 < level lines := by
  subst hs
  have hall : changesOf (header :: (lines ++ back ++ [l])) =
      changesOf lines ++ changesOf (back ++ [l]) := by
    rw [changesOf, List.flatMap_cons, hh, List.nil_append, List.append_assoc, List.flatMap_append]
    rfl
  have hbefore : changesOf (header :: (lines ++ back ++ [l])).dropLast =
      changesOf lines ++ changesOf back := by
    rw [← List.cons_append, List.dropLast_concat, changesOf, List.flatMap_cons, hh, List.nil_append,
      List.flatMap_append]
    rfl
  have hfirst := h.opening
  rw [hall] at hfirst
  have hnot := h.not_before
  rw [hbefore] at hnot
  rw [level_eq_sum]
  refine sum_pos ?_ (fun c hc => mem_changesOf hc) fun hr => hnot (hr.append _)
  obtain ⟨c, rest, hc⟩ := List.exists_cons_of_ne_nil hne
  rw [hc] at hfirst ⊢
  exact hfirst

/-- No line ends the routine before the last one. -/
theorem Closes.not_hasEnded (h : Closes header (front ++ [l])) (hh : header.changes = []) :
    ¬ HasEnded front := by
  rintro ⟨lines, k, back, hs, hk⟩
  unfold Ends at hk
  have hs' : front = (lines ++ [k]) ++ back := by simpa using hs
  by_cases hne : changesOf (lines ++ [k]) = []
  · have hb : ¬ hasBegun (lines ++ [k]) = true := fun hb => changesOf_ne_nil hb hne
    rw [if_neg hb] at hk
    have hlines : changesOf lines = [] := (List.append_eq_nil_iff.1 (changesOf_append _ _ ▸ hne)).1
    have hsplit : front ++ [l] = lines ++ k :: (back ++ [l]) := by rw [hs]; simp
    rw [h.not_isHeader hh hsplit hlines] at hk
    cases hk
  · have hpos := h.level_pos hh hs' hne
    rw [if_pos (hasBegun_of_level_ne (Int.ne_of_gt hpos))] at hk
    omega

/-- The last line ends the routine exactly if the lines have changed the level and leave none
open. -/
theorem Closes.hasEnded_iff (h : Closes header (front ++ [l])) (hh : header.changes = []) :
    HasEnded (front ++ [l]) ↔ hasBegun (front ++ [l]) = true ∧ level (front ++ [l]) ≤ 0 := by
  rw [hasEnded_concat, or_iff_right (h.not_hasEnded hh), Ends]
  by_cases hb : hasBegun (front ++ [l]) = true
  · rw [if_pos hb]
    exact (and_iff_right hb).symm
  · rw [if_neg hb]
    have hfront : changesOf front = [] := by
      by_contra hne
      have hpos := h.level_pos hh (List.append_nil _).symm hne
      refine hb ?_
      rw [hasBegun_concat, hasBegun_of_level_ne (Int.ne_of_gt hpos), Bool.true_or]
    rw [h.not_isHeader hh rfl hfront]
    simp [hb]

/-- Behind a header line without keywords a routine ends where its body closes if the line of the
closing keyword leaves no level open, and has not opened and closed all of the body. -/
theorem Closes.endsWith_iff {body back : List Line} (h : Closes header body)
    (hh : header.changes = []) :
    EndsWith body back ↔ back = [] ∨ level body < 0 ∨ (level body = 0 ∧
      (changesOf body.dropLast ≠ [] ∨
        ∃ next ∈ back.head?, isHeader next.masked = true ∧ blockDelta next.masked = 0)) := by
  rcases List.eq_nil_or_concat body with rfl | ⟨front, l, rfl⟩
  · have := h.closing
    rw [changesOf, List.flatMap_cons, hh] at this
    exact absurd this (by decide)
  rw [List.concat_eq_append] at h ⊢
  rw [EndsWith, List.dropLast_concat, and_iff_right (h.not_hasEnded hh), h.hasEnded_iff hh]
  have hconcat := hasBegun_concat front l
  have hlevel := level_concat front l
  -- with a keyword before, the level has changed before
  have hbefore (hne : changesOf front ≠ []) : hasBegun (front ++ [l]) = true := by
    have hpos := h.level_pos hh (List.append_nil _).symm hne
    rw [hconcat, hasBegun_of_level_ne (Int.ne_of_gt hpos), Bool.true_or]
  -- without, only the last line changes it
  have hlast (hn : changesOf front = []) (hb : hasBegun (front ++ [l]) = true) :
      level (front ++ [l]) ≠ 0 := by
    have hf : hasBegun front = false := Bool.eq_false_iff.2 fun hf => changesOf_ne_nil hf hn
    rw [hconcat, hf, Bool.false_or, bne_iff_ne] at hb
    have h0 : level front = 0 := by rw [level_eq_sum, hn]; rfl
    rw [hlevel, h0, zero_add]
    exact hb
  have hzero (hb : ¬ hasBegun (front ++ [l]) = true) : level (front ++ [l]) = 0 :=
    not_not.1 (mt hasBegun_of_level_ne hb)
  cases back with
  | nil =>
    refine iff_of_true ?_ (.inl rfl)
    by_cases hb : hasBegun (front ++ [l]) = true ∧ level (front ++ [l]) ≤ 0
    · exact .inl hb
    · exact .inr ⟨hb, by rintro next ⟨⟩⟩
  | cons next rest =>
    have hnext : (∀ k ∈ (next :: rest).head?, hasBegun (front ++ [l] ++ [k]) = false ∧
        isHeader k.masked = true) ↔ hasBegun (front ++ [l]) = false ∧
          (isHeader next.masked = true ∧ blockDelta next.masked = 0) := by
      simp only [List.head?_cons, Option.mem_def, Option.some.injEq, forall_eq']
      rw [hasBegun_concat, Bool.or_eq_false_iff, bne_eq_false_iff_eq]
      tauto
    rw [hnext]
    simp only [List.head?_cons, Option.mem_def, Option.some.injEq, exists_eq_left', reduceCtorEq,
      false_or]
    by_cases hb : hasBegun (front ++ [l]) = true
    · have hne : level (front ++ [l]) = 0 → changesOf front ≠ [] := fun h0 hn => hlast hn hb h0
      rw [hb]
      simp only [true_and, reduceCtorEq, false_and, and_false, or_false]
      constructor
      · intro hle
        rcases Int.lt_or_eq_of_le hle with hlt | h0
        · exact .inl hlt
        · exact .inr ⟨h0, .inl (hne h0)⟩
      · rintro (hlt | ⟨h0, -⟩)
        · exact Int.le_of_lt hlt
        · exact Int.le_of_eq h0
    · have h0 := hzero hb
      have hn : changesOf front = [] := not_not.1 (mt hbefore hb)
      rw [Bool.not_eq_true] at hb
      rw [hb, h0, hn]
      simp

end Closes

/-- When a routine ends on the line on which its body closes. In general that line has to be the
first that leaves no level open in the count of the scan. Behind a header line without keywords it is
so unless keywords behind the closing one open levels again, or the body stands on that line alone
and no other header follows on the next. -/
theorem endLine_eq_iff_closes {code : String} {before body back : List Line} {header : Line}
    {r : Routine} (h : (ofString code).lines = before ++ header :: (body ++ back))
    (hr : r ∈ (ofString code).routines) (hn : r.headerLine = header.number)
    (hc : Closes header body) :
    let closing := ScanState.lastNumber header.number body
    (r.endLine = closing ↔ EndsWith body back) ∧
      (header.changes = [] → (r.endLine = closing ↔
        back = [] ∨ level body < 0 ∨ (level body = 0 ∧ (changesOf body.dropLast ≠ [] ∨
          ∃ next ∈ back.head?, isHeader next.masked = true ∧ blockDelta next.masked = 0)))) := by
  intro closing
  have hends := endLine_eq_iff_endsWith h hr hn
  exact ⟨hends, fun hh => hends.trans (hc.endsWith_iff hh)⟩

/-- Blocks inside each other close where they should. -/
theorem endLine_nested :
    let src := ofString ("procedure A()\nvar\n  x: Integer;\nbegin\n  if B then begin\n" ++
      "    case x of\n      1: \"End\".Begin();\n    end;\n  end;\nend;\nvar\n")
    let header := plainLine 1 "procedure A()"
    let body := [plainLine 2 "var", plainLine 3 "  x: Integer;", plainLine 4 "begin",
      plainLine 5 "  if B then begin", plainLine 6 "    case x of",
      plainLine 7 "      1: \"End\".Begin();", plainLine 8 "    end;", plainLine 9 "  end;",
      plainLine 10 "end;"]
    src.lines = [] ++ header :: (body ++ [plainLine 11 "var"]) ∧ Closes header body ∧
      header.changes = [] ∧ src.routines.length = 1 ∧
      ∀ r ∈ src.routines, r.headerLine = header.number → r.endLine = 10 := by
  intro src header body
  have h : src.lines = [] ++ header :: (body ++ [plainLine 11 "var"]) := by decide +kernel
  have hc : Closes header body := by decide +kernel
  have hh : header.changes = [] := by decide +kernel
  refine ⟨h, hc, hh, by decide +kernel, fun r hr hn => ?_⟩
  exact ((endLine_eq_iff_closes h hr hn hc).2 hh).2 (by decide +kernel)

/-- A body on one line closes there, but the routine goes on to the next header. A body that opens on
the header line closes with the last keyword, but the routine ends with a block inside. -/
theorem endLine_ne_closing :
    let one := ofString "procedure A()\nbegin end;\n\nprocedure B()\nbegin\nend;\n"
    let two := ofString "procedure A() begin\nif x then begin\ny;\nend;\nz;\nend;\n"
    (one.lines = [] ++ plainLine 1 "procedure A()" :: ([plainLine 2 "begin end;"] ++
          [plainLine 3 "", plainLine 4 "procedure B()", plainLine 5 "begin", plainLine 6 "end;"]) ∧
        Closes (plainLine 1 "procedure A()") [plainLine 2 "begin end;"] ∧
        (one.routines.map fun r => (r.headerLine, r.endLine)) = [(1, 3), (4, 6)]) ∧
      two.lines = [] ++ plainLine 1 "procedure A() begin" :: ([plainLine 2 "if x then begin",
          plainLine 3 "y;", plainLine 4 "end;", plainLine 5 "z;", plainLine 6 "end;"] ++ []) ∧
        Closes (plainLine 1 "procedure A() begin") [plainLine 2 "if x then begin",
          plainLine 3 "y;", plainLine 4 "end;", plainLine 5 "z;", plainLine 6 "end;"] ∧
        (two.routines.map fun r => (r.headerLine, r.endLine)) = [(1, 4)] := by
  decide +kernel

end Acceptance.Source
