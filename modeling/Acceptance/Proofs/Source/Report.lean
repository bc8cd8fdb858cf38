import Mathlib.Data.List.Basic
import Acceptance.Proofs.Source.Extent

/-!
# Which headers are reported

A routine is over when a line of its own has closed its levels; a routine that has not begun is over
when another header comes that has no attributes on its line. A header line is reported if all
earlier routines are over when it comes, and a test mark above it counts if they are over there
already. So behind a routine without body, or with a body on one line, attributes are lost, and so is
a header that stands on the line of its attributes.

Main results:

* `ScanState.scan_spec`: the open routine is reported, and then those that open later.
* `isFree_iff_isOutside`: the lines of the reported routines are those on which they are not over.
* `isReported_iff`: which headers of procedures are reported, with the right mark.
-/

namespace Acceptance.Source

open Text

/-! ## Ascending lines -/

/-- Lines with ascending numbers. -/
def Ascends (lines : List Line) : Prop := lines.Pairwise fun k l => k.number < l.number

theorem le_of_mem_zipLines {number : ℕ} {raws maskeds : List (List Char)} {l : Line}
    (h : l ∈ zipLines number raws maskeds) : number ≤ l.number := by
  induction raws generalizing number maskeds with
  | nil =>
    rw [zipLines] at h
    · cases h
    · rintro _ _ _ _ ⟨⟩
  | cons raw raws ih =>
    cases maskeds with
    | nil => cases h
    | cons masked maskeds =>
      rw [zipLines] at h
      rcases List.mem_cons.1 h with rfl | h
      · exact le_rfl
      · exact Nat.le_of_succ_le (ih h)

theorem ascends_zipLines (number : ℕ) (raws maskeds : List (List Char)) :
    Ascends (zipLines number raws maskeds) := by
  induction raws generalizing number maskeds with
  | nil =>
    rw [zipLines]
    · exact .nil
    · rintro _ _ _ _ ⟨⟩
  | cons raw raws ih =>
    cases maskeds with
    | nil => exact .nil
    | cons masked maskeds =>
      rw [zipLines]
      exact .cons (fun l hl => le_of_mem_zipLines hl) (ih _ _)

theorem ascends_lines (s : Source) : Ascends s.lines := ascends_zipLines _ _ _

/-- The lines around a line have smaller and greater numbers. -/
theorem Ascends.around {before after : List Line} {l : Line} (h : Ascends (before ++ l :: after)) :
    (∀ k ∈ before, k.number < l.number) ∧ (∀ k ∈ after, l.number < k.number) ∧ Ascends after := by
  obtain ⟨-, hl, hb⟩ := List.pairwise_append.1 h
  obtain ⟨ha, hasc⟩ := List.pairwise_cons.1 hl
  exact ⟨fun k hk => hb k hk l List.mem_cons_self, ha, hasc⟩

/-! ## What the scan reports from a state on -/

/-- Whether a routine has its header on one of some lines. -/
def OpensOn (lines : List Line) (r : Routine) : Prop := ∃ k ∈ lines, r.headerLine = k.number

theorem OpensOn.cons {lines : List Line} {r : Routine} (h : OpensOn lines r) (l : Line) :
    OpensOn (l :: lines) r := by
  obtain ⟨k, hk, he⟩ := h
  exact ⟨k, List.mem_cons_of_mem l hk, he⟩

namespace ScanState

/-- Whether the scan reports the open routine, with an end not before the last line read, and then
the given routines. -/
def Reports (s : ScanState) (last : ℕ) (lines : List Line) (later : List Routine) : Prop :=
  (s.opened = none ∧ s.scan last lines = later) ∨
    ∃ o ending, s.opened = some o ∧ last ≤ ending ∧
      s.scan last lines = { o.routine with endLine := ending } :: later

variable {s : ScanState} {last : ℕ} {l : Line} {lines : List Line} {later : List Routine}

theorem Reports.of_none (h : s.Reports last lines later) (hs : s.opened = none) :
    s.scan last lines = later := by
  rcases h with ⟨-, he⟩ | ⟨o, ending, ho, -, -⟩
  · exact he
  · rw [hs] at ho
    cases ho

theorem Reports.of_some (h : s.Reports last lines later) {o : OpenRoutine}
    (hs : s.opened = some o) :
    ∃ ending, last ≤ ending ∧
      s.scan last lines = { o.routine with endLine := ending } :: later := by
  rcases h with ⟨hn, -⟩ | ⟨q, ending, hq, hle, he⟩
  · rw [hs] at hn
    cases hn
  · obtain rfl : o = q := Option.some.inj (hs.symm.trans hq)
    exact ⟨ending, hle, he⟩

/-- Behind a line outside of bodies, what is reported opens on that line or later. -/
theorem Reports.opensOn (hs : s.opened = none) (hlater : ∀ r ∈ later, OpensOn lines r)
    (h : (s.readOutside l).Reports last lines later) :
    ∀ r ∈ (s.readOutside l).scan last lines, OpensOn (l :: lines) r := by
  intro r hr
  rcases h with ⟨-, he⟩ | ⟨o, ending, ho, -, he⟩
  · rw [he] at hr
    exact (hlater r hr).cons l
  · rw [he] at hr
    rcases List.mem_cons.1 hr with rfl | hr
    · exact ⟨l, List.mem_cons_self, (opened_readOutside hs ho).1⟩
    · exact (hlater r hr).cons l

/-- The open routine is reported first, and then routines that open on later lines. -/
theorem scan_spec (s : ScanState) (hasc : Ascends lines) (hlast : ∀ k ∈ lines, last < k.number) :
    ∃ later : List Routine, (∀ r ∈ later, OpensOn lines r) ∧ s.Reports last lines later := by
  induction lines generalizing s last with
  | nil =>
    refine ⟨[], by simp, ?_⟩
    cases ho : s.opened with
    | none =>
      refine .inl ⟨ho, ?_⟩
      rw [scan, finish, ho]
      rfl
    | some o =>
      refine .inr ⟨o, max last o.routine.headerLine, ho, Nat.le_max_left _ _, ?_⟩
      rw [scan, finish, ho]
      rfl
  | cons l lines ih =>
    obtain ⟨hl, hasc⟩ := List.pairwise_cons.1 hasc
    have hll := hlast l List.mem_cons_self
    obtain ⟨later, hlater, hscan⟩ := ih (s.read l).1 hasc hl
    have hcons : s.scan last (l :: lines) =
        (s.read l).2.toList ++ (s.read l).1.scan l.number lines := rfl
    obtain ⟨o, p, ho, -, hp, hr⟩ | ⟨o, ho, -, hr⟩ | ⟨hs, hr⟩ | ⟨o, ho, -, hr⟩ := s.read_cases l
    · -- the routine goes on: it is reported by the rest of the scan
      rw [hr] at hscan hcons
      obtain ⟨ending, hle, he⟩ := hscan.of_some rfl
      refine ⟨later, fun r hm => (hlater r hm).cons l, .inr ⟨o, ending, ho, by omega, ?_⟩⟩
      rw [hcons, he, hp]
      rfl
    · rw [hr] at hscan hcons
      refine ⟨later, fun r hm => (hlater r hm).cons l, .inr ⟨o, l.number, ho, hll.le, ?_⟩⟩
      rw [hcons, hscan.of_none rfl]
      rfl
    · rw [hr] at hscan hcons
      exact ⟨_, Reports.opensOn hs hlater hscan, .inl ⟨hs, hcons⟩⟩
    · rw [hr] at hscan hcons
      refine ⟨_, Reports.opensOn rfl hlater hscan,
        .inr ⟨o, max (l.number - 1) o.routine.headerLine, ho, ?_, hcons⟩⟩
      have := Nat.le_max_left (l.number - 1) o.routine.headerLine
      omega

end ScanState

/-! ## Routines around a line -/

/-- Whether a line lies among the lines of no routine but its own. -/
def IsFree (routines : List Routine) (l : Line) : Prop :=
  ∀ r ∈ routines, r.hasLine l.number = true → r.headerLine = l.number

/-- The lines between two lines with given numbers. -/
def linesBetween (s : Source) (first last : ℕ) : List Line :=
  s.lines.filter fun k => decide (first < k.number) && decide (k.number < last)

/-- Whether all routines with earlier headers are over when a line comes: each has ended on a line
before, or it has not begun and the line is another header without attributes. -/
def IsOutside (s : Source) (l : Line) : Prop :=
  ∀ r ∈ s.routines, r.headerLine < l.number →
    let body := s.linesBetween r.headerLine l.number
    HasEnded body ∨ (hasBegun (body ++ [l]) = false ∧ isHeader l.masked = true)

instance (s : Source) (l : Line) : Decidable (IsOutside s l) := by
  unfold IsOutside
  infer_instance

section Position

variable {src : Source} {before after : List Line} {l : Line}

/-- The routines of a source around one of its lines. -/
theorem routines_around (h : src.lines = before ++ l :: after) :
    let s := (ScanState.start.run before).1
    ∃ ended later, (∀ r ∈ ended, r.headerLine < l.number ∧ r.endLine < l.number) ∧
      (∀ r ∈ later, l.number < r.headerLine) ∧ s.Below l.number ∧
      (s.read l).1.Reports l.number after later ∧
      src.routines = ended ++ ((s.read l).2.toList ++ (s.read l).1.scan l.number after) := by
  intro s
  obtain ⟨hbefore, hafter, hasc⟩ := (h ▸ ascends_lines src : Ascends (before ++ l :: after)).around
  have hstart : ScanState.start.Below l.number := by
    rintro o ⟨⟩
  obtain ⟨hbelow, hended⟩ := ScanState.run_below hstart hbefore
  obtain ⟨later, hlater, hscan⟩ := ScanState.scan_spec (s.read l).1 hasc hafter
  refine ⟨_, later, hended, ?_, hbelow, hscan, ?_⟩
  · intro r hr
    obtain ⟨k, hk, he⟩ := hlater r hr
    rw [he]
    exact hafter k hk
  · rw [routines, h, ScanState.scan_append]
    rfl

/-- The routine that is open when a line comes is reported, together with the line if that belongs
to it. -/
theorem exists_routine_of_opened (h : src.lines = before ++ l :: after) {o : OpenRoutine}
    (ho : (ScanState.start.run before).1.opened = some o) :
    ∃ r ∈ src.routines, r.headerLine = o.routine.headerLine ∧ r.headerLine < l.number ∧
      (o.Holds l → l.number ≤ r.endLine) := by
  obtain ⟨ended, later, -, -, hbelow, hscan, hroutines⟩ := routines_around h
  generalize (ScanState.start.run before).1 = s at *
  have hlt := hbelow o ho
  rw [hroutines]
  obtain ⟨q, p, hq, -, hp, hr⟩ | ⟨q, hq, -, hr⟩ | ⟨hs, -⟩ | ⟨q, hq, hh, hr⟩ := s.read_cases l
  · obtain rfl : o = q := Option.some.inj (ho.symm.trans hq)
    rw [hr] at hscan ⊢
    obtain ⟨ending, hle, he⟩ := hscan.of_some rfl
    refine ⟨{ o.routine with endLine := ending }, ?_, rfl, hlt, fun _ => hle⟩
    rw [he, hp]
    exact List.mem_append_right _ (List.mem_append_right _ List.mem_cons_self)
  · obtain rfl : o = q := Option.some.inj (ho.symm.trans hq)
    rw [hr]
    exact ⟨{ o.routine with endLine := l.number },
      List.mem_append_right _ (List.mem_append_left _ List.mem_cons_self), rfl, hlt, fun _ => le_rfl⟩
  · rw [hs] at ho
    cases ho
  · obtain rfl : o = q := Option.some.inj (ho.symm.trans hq)
    rw [hr]
    exact ⟨{ o.routine with endLine := max (l.number - 1) o.routine.headerLine },
      List.mem_append_right _ (List.mem_append_left _ List.mem_cons_self), rfl, hlt,
      fun hk => absurd hk hh⟩

/-- If a line belongs to no open routine, only a routine that opens there reaches it. -/
theorem isFree_of_forall_not_holds (h : src.lines = before ++ l :: after)
    (hopen : ∀ o, (ScanState.start.run before).1.opened = some o → ¬ o.Holds l) :
    IsFree src.routines l := by
  obtain ⟨ended, later, hended, hlater, hbelow, hscan, hroutines⟩ := routines_around h
  generalize (ScanState.start.run before).1 = s at *
  intro r hr hl
  simp only [Routine.hasLine, between, Bool.and_eq_true, decide_eq_true_eq] at hl
  rw [hroutines] at hr
  rcases List.mem_append.1 hr with hr | hr
  · exact absurd hl.2 (Nat.not_le.2 (hended r hr).2)
  rcases List.mem_append.1 hr with hr | hr
  · -- the routine that the line ends has its last line before
    cases ho : s.opened with
    | none =>
      rw [ScanState.read_of_closed ho] at hr
      cases hr
    | some o =>
      rw [ScanState.read_of_not_holds ho (hopen o ho)] at hr
      obtain rfl := List.mem_singleton.1 hr
      have hlt := hbelow o ho
      simp only at hl
      omega
  · rcases hscan with ⟨-, he⟩ | ⟨o, ending, ho, -, he⟩
    · rw [he] at hr
      have := hlater r hr
      omega
    · rw [he] at hr
      rcases List.mem_cons.1 hr with rfl | hr
      · rw [ScanState.read_of_free hopen] at ho
        exact (ScanState.opened_readOutside rfl ho).1
      · have := hlater r hr
        omega

/-- A line lies among the lines of another routine exactly if it belongs to the open one. -/
theorem isFree_iff (h : src.lines = before ++ l :: after) :
    IsFree src.routines l ↔
      ∀ o, (ScanState.start.run before).1.opened = some o → ¬ o.Holds l := by
  constructor
  · intro hfree o ho hh
    obtain ⟨r, hr, -, hlt, hend⟩ := exists_routine_of_opened h ho
    have hl : r.hasLine l.number = true := by
      rw [Routine.hasLine, between, decide_eq_true hlt.le, decide_eq_true (hend hh)]
      rfl
    exact absurd (hfree r hr hl) (Nat.ne_of_lt hlt)
  · exact isFree_of_forall_not_holds h

/-- A reported routine with its header on a line is the one that is open behind the line, and the
first that is reported from there on. -/
theorem scan_of_headerLine (h : src.lines = before ++ l :: after) {r : Routine}
    (hr : r ∈ src.routines) (hn : r.headerLine = l.number) :
    let s := ((ScanState.start.run before).1.read l).1
    ∃ o ending later, s.opened = some o ∧ r = { o.routine with endLine := ending } ∧
      s.scan l.number after = r :: later := by
  intro s
  obtain ⟨ended, later, hended, hlater, hbelow, hscan, hroutines⟩ := routines_around h
  rw [hroutines] at hr
  rcases List.mem_append.1 hr with hr | hr
  · exact absurd hn (Nat.ne_of_lt (hended r hr).1)
  rcases List.mem_append.1 hr with hr | hr
  · obtain ⟨o, ho, he⟩ := ScanState.headerLine_of_mem_read (Option.mem_toList.1 hr)
    exact absurd (he.symm.trans hn) (Nat.ne_of_lt (hbelow o ho))
  have notLater : r ∉ later := fun hm => (hlater r hm).ne' hn
  rcases hscan with ⟨-, he⟩ | ⟨o, ending, ho, -, he⟩
  · rw [he] at hr
    exact absurd hr notLater
  · rw [he] at hr
    obtain rfl := (List.mem_cons.1 hr).resolve_right notLater
    exact ⟨o, ending, later, ho, rfl, he⟩

/-- The routine of a header line is the one that the line opens outside of bodies, up to its end. -/
theorem exists_routine_iff_opened (h : src.lines = before ++ l :: after) {p : Routine → Prop}
    (hp : ∀ r ending, p { r with endLine := ending } ↔ p r) :
    let s := (ScanState.start.run before).1
    (∃ r ∈ src.routines, r.headerLine = l.number ∧ p r) ↔
      (∀ o, s.opened = some o → ¬ o.Holds l) ∧
        ∃ o, (({ s with opened := none } : ScanState).readOutside l).opened = some o ∧
          p o.routine := by
  intro s
  obtain ⟨ended, later, -, -, hbelow, hscan, hroutines⟩ := routines_around h
  constructor
  · rintro ⟨r, hr, hn, hr'⟩
    obtain ⟨o, ending, -, ho, rfl, -⟩ := scan_of_headerLine h hr hn
    have hopen : ∀ q, s.opened = some q → ¬ q.Holds l := by
      intro q hq hh
      rcases ScanState.read_of_holds hq hh with ⟨w, hw, hr⟩ | hr
      · rw [hr] at ho
        cases ho
        rw [hw] at hn
        exact absurd hn (Nat.ne_of_lt (hbelow q hq))
      · rw [hr] at ho
        cases ho
    refine ⟨hopen, o, ?_, (hp _ _).1 hr'⟩
    rw [← ScanState.read_of_free hopen]
    exact ho
  · rintro ⟨hopen, o, ho, hr'⟩
    have hn := (ScanState.opened_readOutside rfl ho).1
    rw [← ScanState.read_of_free hopen] at ho
    obtain ⟨ending, -, he⟩ := hscan.of_some ho
    refine ⟨{ o.routine with endLine := ending }, ?_, hn, (hp _ _).2 hr'⟩
    rw [hroutines, he]
    exact List.mem_append_right _ (List.mem_append_right _ List.mem_cons_self)

/-- Kind and mark of the routine of a header line. -/
theorem exists_routine_iff (h : src.lines = before ++ l :: after) (p : RoutineKind → Bool → Prop) :
    let s := (ScanState.start.run before).1
    (∃ r ∈ src.routines, r.headerLine = l.number ∧ p r.kind r.isTest) ↔
      (∀ o, s.opened = some o → ¬ o.Holds l) ∧
        ∃ o, (({ s with opened := none } : ScanState).readOutside l).opened = some o ∧
          p o.routine.kind o.routine.isTest :=
  exists_routine_iff_opened h (p := fun r => p r.kind r.isTest) fun _ _ => Iff.rfl

theorem linesBetween_eq {header : Line} {body : List Line}
    (h : src.lines = before ++ header :: (body ++ l :: after)) :
    src.linesBetween header.number l.number = body := by
  have hasc : Ascends (before ++ header :: (body ++ l :: after)) := h ▸ ascends_lines src
  obtain ⟨hbefore, hbehind, hrest⟩ := hasc.around
  obtain ⟨hbody, hafter, -⟩ := hrest.around
  have hl := hbehind l (by simp)
  rw [linesBetween, h, List.filter_append, List.filter_cons, List.filter_append, List.filter_cons]
  have none {lines : List Line} (hk : ∀ k ∈ lines, k.number ≤ header.number ∨ l.number ≤ k.number) :
      lines.filter (fun k => decide (header.number < k.number) && decide (k.number < l.number)) =
        [] := by
    refine List.filter_eq_nil_iff.2 fun k hm => ?_
    rw [Bool.and_eq_true, decide_eq_true_eq, decide_eq_true_eq]
    have := hk k hm
    omega
  have all : body.filter (fun k => decide (header.number < k.number) &&
      decide (k.number < l.number)) = body := by
    refine List.filter_eq_self.2 fun k hm => ?_
    rw [Bool.and_eq_true, decide_eq_true_eq, decide_eq_true_eq]
    exact ⟨hbehind k (by simp [hm]), hbody k hm⟩
  rw [none fun k hk => .inl (hbefore k hk).le, none fun k hk => .inr (hafter k hk).le, all]
  simp

/-- Every routine has its header on a line. -/
theorem exists_header {r : Routine} (hr : r ∈ src.routines) :
    ∃ header ∈ src.lines, r.headerLine = header.number := by
  have hpos : ∀ k ∈ src.lines, 0 < k.number := fun k hk => le_of_mem_zipLines hk
  obtain ⟨later, hlater, hscan⟩ := ScanState.start.scan_spec (ascends_lines src) hpos
  rw [routines, hscan.of_none rfl] at hr
  exact hlater r hr

/-- The lines around the header of an earlier routine. -/
theorem lines_around_header (h : src.lines = before ++ l :: after) {r : Routine}
    (hr : r ∈ src.routines) (hlt : r.headerLine < l.number) :
    ∃ front header body, before = front ++ header :: body ∧ r.headerLine = header.number := by
  have hasc : Ascends (before ++ l :: after) := h ▸ ascends_lines src
  obtain ⟨header, hm, hn⟩ := exists_header hr
  have hbefore : header ∈ before := by
    rw [h, List.mem_append, List.mem_cons] at hm
    rcases hm with hm | rfl | hm
    · exact hm
    · omega
    · have := hasc.around.2.1 header hm
      omega
  obtain ⟨front, body, he⟩ := List.append_of_mem hbefore
  exact ⟨front, header, body, he, hn⟩

/-- A line belongs to a routine that has begun, and to one that has not unless it is a header. -/
theorem holds_iff {r : Routine} {body : List Line} :
    (⟨r, level body, hasBegun body⟩ : OpenRoutine).Holds l ↔
      ¬ (hasBegun (body ++ [l]) = false ∧ isHeader l.masked = true) := by
  unfold OpenRoutine.Holds
  rw [hasBegun_concat, Bool.or_eq_false_iff, bne_eq_false_iff_eq]
  cases hasBegun body <;> cases isHeader l.masked <;> simp

/-- A line belongs to no open routine exactly if all earlier routines are over. -/
theorem isOutside_iff (h : src.lines = before ++ l :: after) :
    IsOutside src l ↔
      ∀ o, (ScanState.start.run before).1.opened = some o → ¬ o.Holds l := by
  constructor
  · intro hout o ho hh
    obtain ⟨r, hr, hn, hlt, -⟩ := exists_routine_of_opened h ho
    obtain ⟨front, header, body, rfl, hopen, hheader, hended⟩ :=
      ScanState.exists_header_of_opened ho
    have hbody : src.linesBetween r.headerLine l.number = body := by
      rw [hn, hheader]
      exact linesBetween_eq (h.trans (List.append_assoc _ _ _))
    have hover := hout r hr hlt
    simp only [hbody] at hover
    rw [hopen] at hh
    rcases hover with he | he
    · exact hended he
    · exact holds_iff.1 hh he
  · intro hopen r hr hlt
    obtain ⟨front, header, body, rfl, hn⟩ := lines_around_header h hr hlt
    have hlines : src.lines = front ++ header :: (body ++ l :: after) :=
      h.trans (List.append_assoc _ _ _)
    have hbody : src.linesBetween r.headerLine l.number = body := by
      rw [hn]
      exact linesBetween_eq hlines
    simp only [hbody]
    by_cases he : HasEnded body
    · exact .inl he
    obtain ⟨hfree, o, ho, -⟩ :=
      (exists_routine_iff hlines fun _ _ => True).1 ⟨r, hr, hn, trivial⟩
    obtain ⟨-, hdepth, hstarted⟩ := ScanState.opened_readOutside rfl ho
    have hfirst : o = ⟨o.routine, 0, false⟩ := by rw [← hdepth, ← hstarted]
    rw [← ScanState.read_of_free hfree, hfirst] at ho
    have hlast : (ScanState.start.run (front ++ header :: body)).1.opened =
        some ⟨o.routine, level body, hasBegun body⟩ := by
      rw [ScanState.run_append, ScanState.run_cons]
      exact ScanState.run_body ho he
    exact .inr (not_not.1 (mt holds_iff.2 (hopen _ hlast)))

/-- The lines of the reported routines are those on which they are not over. -/
theorem isFree_iff_isOutside (h : src.lines = before ++ l :: after) :
    IsFree src.routines l ↔ IsOutside src l := by
  rw [isFree_iff h, isOutside_iff h]

end Position

/-! ## Test marks above a header -/

/-- A test mark waits behind some lines of attributes if it waited before them, or if one of them has
a mark and is read outside of all routines. -/
theorem ScanState.testLine_run_lead {s : ScanState} (hs : s.Idle) {lead : List Line}
    (hl : ∀ m ∈ lead, m.isLead = true) :
    (s.run lead).1.testLine.isSome = true ↔
      s.testLine.isSome = true ∨
        ∃ front m back, lead = front ++ m :: back ∧ m.marks = true ∧
          (s.run front).1.opened = none := by
  induction lead generalizing s with
  | nil => simp
  | cons m lead ih =>
    have hm := hl m List.mem_cons_self
    have split : (∃ front k back, m :: lead = front ++ k :: back ∧ k.marks = true ∧
        (s.run front).1.opened = none) ↔ (m.marks = true ∧ s.opened = none) ∨
          ∃ front k back, lead = front ++ k :: back ∧ k.marks = true ∧
            ((s.read m).1.run front).1.opened = none := by
      constructor
      · rintro ⟨front, k, back, he, hk, ho⟩
        cases front with
        | nil =>
          obtain ⟨rfl, -⟩ := List.cons.inj he
          exact .inl ⟨hk, ho⟩
        | cons f front =>
          obtain ⟨rfl, hlead⟩ := List.cons.inj he
          exact .inr ⟨front, k, back, hlead, hk, ho⟩
      · rintro (⟨hk, ho⟩ | ⟨front, k, back, he, hk, ho⟩)
        · exact ⟨[], m, lead, rfl, hk, ho⟩
        · exact ⟨m :: front, k, back, by rw [he]; rfl, hk, ho⟩
    rw [run_cons, ih (read_idle hs) fun k hk => hl k (List.mem_cons_of_mem _ hk), split, ← or_assoc]
    refine or_congr ?_ Iff.rfl
    cases ho : s.opened with
    | none =>
      rw [read_lead ho hm, collect]
      cases m.marks with
      | true => simp
      | false => simp
    | some o =>
      rw [testLine_read_lead ho hm]
      simp

/-! ## Headers of procedures -/

/-- Whether a header line is marked as a test: on its own line or on lines of attributes above. -/
def IsMarked (lead : List Line) (l : Line) : Prop :=
  l.marks = true ∨ ∃ m ∈ lead, m.marks = true

instance (lead : List Line) (l : Line) : Decidable (IsMarked lead l) := by
  unfold IsMarked
  infer_instance

/-- Whether a header line is reported as a procedure, and as a test exactly if it is marked. -/
def IsReported (routines : List Routine) (lead : List Line) (l : Line) : Prop :=
  ∃ r ∈ routines, r.headerLine = l.number ∧ r.kind = .procedure ∧
    (r.isTest = true ↔ IsMarked lead l)

instance (routines : List Routine) (lead : List Line) (l : Line) :
    Decidable (IsReported routines lead l) := by
  unfold IsReported
  infer_instance

/-- The test mark that waits in front of a header line comes from those lines of attributes above it
that lie outside of earlier routines. -/
theorem testLine_run_iff {src : Source} {before lead after : List Line} {l : Line}
    (h : src.lines = before ++ lead ++ l :: after)
    (hbefore : ∀ k ∈ before.getLast?, k.isLead = false) (hlead : ∀ m ∈ lead, m.isLead = true) :
    (ScanState.start.run (before ++ lead)).1.testLine.isSome = true ↔
      ∃ m ∈ lead, m.marks = true ∧ IsOutside src m := by
  have hstart : ScanState.start.Idle := fun _ => rfl
  have nothing : (ScanState.start.run before).1.testLine = none := by
    rcases List.eq_nil_or_concat before with rfl | ⟨front, k, rfl⟩
    · rfl
    · rw [List.concat_eq_append] at hbefore ⊢
      rw [ScanState.run_append]
      exact ScanState.testLine_read (ScanState.run_idle hstart) (hbefore k (by simp))
  have free : ∀ front m back, lead = front ++ m :: back →
      (IsOutside src m ↔
        ((ScanState.start.run before).1.run front).1.opened = none) := by
    rintro front m back rfl
    have hm : src.lines = before ++ front ++ m :: (back ++ l :: after) := by simpa using h
    have holds : ∀ o : OpenRoutine, o.Holds m := fun o =>
      .inr (.inr (Line.isHeader_of_isLead (hlead m (by simp))))
    rw [isOutside_iff hm, ScanState.run_append]
    constructor
    · intro ho
      exact Option.eq_none_iff_forall_not_mem.2 fun o hmem => ho o hmem (holds o)
    · intro ho o hmem
      rw [ho] at hmem
      cases hmem
  rw [ScanState.run_append, ScanState.testLine_run_lead (ScanState.run_idle hstart) hlead, nothing]
  constructor
  · rintro (hn | ⟨front, m, back, he, hm, ho⟩)
    · cases hn
    · exact ⟨m, by rw [he]; simp, hm, (free front m back he).2 ho⟩
  · rintro ⟨m, hmem, hm, hf⟩
    obtain ⟨front, back, he⟩ := List.append_of_mem hmem
    exact .inr ⟨front, m, back, he, hm, (free front m back he).1 hf⟩

/-- A header line of a procedure is reported, with the mark that it has, exactly if its name can be
read, all earlier routines are over when the line comes, and a test mark above it stands on a line
for which they are over as well. -/
theorem isReported_iff {code : String} {before lead after : List Line} {l : Line}
    (h : (ofString code).lines = before ++ lead ++ l :: after)
    (hbefore : ∀ k ∈ before.getLast?, k.isLead = false) (hlead : ∀ m ∈ lead, m.isLead = true)
    (hl : l.isProcedure = true) :
    let src := ofString code
    IsReported src.routines lead l ↔
      l.name? ≠ none ∧ IsOutside src l ∧
        (IsMarked lead l → l.marks = true ∨ ∃ m ∈ lead, m.marks = true ∧ IsOutside src m) := by
  intro src
  have hreported := exists_routine_iff h fun kind isTest =>
    kind = .procedure ∧ (isTest = true ↔ IsMarked lead l)
  have hwaiting := testLine_run_iff h hbefore hlead
  have houtside := isOutside_iff h
  generalize (ScanState.start.run (before ++ lead)).1 = s at hreported hwaiting houtside
  refine Iff.trans hreported ?_
  rw [ScanState.readOutside_of_not_isLead (Line.isLead_of_isProcedure hl),
    Line.header?_of_isProcedure hl]
  cases hname : l.name? with
  | none => simp
  | some name =>
    have htest : (ScanState.collect { s with opened := none } l).testLine.isSome = true ↔
        l.marks = true ∨ ∃ m ∈ lead, m.marks = true ∧ IsOutside src m := by
      rw [← hwaiting, ScanState.collect]
      cases l.marks with
      | true => simp
      | false => simp
    have hmarked : (l.marks = true ∨ ∃ m ∈ lead, m.marks = true ∧ IsOutside src m) →
        IsMarked lead l := by
      rintro (hm | ⟨m, hm, hk, -⟩)
      · exact .inl hm
      · exact .inr ⟨m, hm, hk⟩
    constructor
    · rintro ⟨hf, o, ho, -, ht⟩
      cases ho
      exact ⟨Option.some_ne_none _, houtside.2 hf, fun hm => htest.1 (ht.2 hm)⟩
    · rintro ⟨-, hf, hm⟩
      exact ⟨houtside.1 hf, _, rfl, rfl, fun ht => hmarked (htest.1 ht), fun hk => htest.2 (hm hk)⟩

/-- A line without comments and literals. -/
def plainLine (number : ℕ) (text : String) : Line := ⟨number, text.toList, text.toList⟩

/-- A test behind a procedure with a body is reported as a test. -/
theorem isReported_behind_body :
    IsReported
      (ofString "procedure A()\nbegin\nend;\n[Test]\nprocedure B()\nbegin\nend;\n").routines
      [plainLine 4 "[Test]"] (plainLine 5 "procedure B()") := by
  have h : (ofString "procedure A()\nbegin\nend;\n[Test]\nprocedure B()\nbegin\nend;\n").lines =
      [plainLine 1 "procedure A()", plainLine 2 "begin", plainLine 3 "end;"] ++
        [plainLine 4 "[Test]"] ++
          plainLine 5 "procedure B()" :: [plainLine 6 "begin", plainLine 7 "end;"] := by
    decide
  refine (isReported_iff h ?_ ?_ ?_).2 ?_
  · decide
  · decide +kernel
  · decide
  · decide +kernel

/-- A test behind a procedure without body is reported without its mark, although the header is
marked and no other routine has a level keyword on its lines. -/
theorem not_isReported_behind_bodyless :
    let src := ofString "procedure A();\n[Test]\nprocedure B()\nbegin\nend;\n"
    let lead := [plainLine 2 "[Test]"]
    let l := plainLine 3 "procedure B()"
    src.lines = [plainLine 1 "procedure A();"] ++ lead ++
        l :: [plainLine 4 "begin", plainLine 5 "end;"] ∧
      (plainLine 1 "procedure A();").isLead = false ∧ (∀ m ∈ lead, m.isLead = true) ∧
      l.isProcedure = true ∧ IsMarked lead l ∧
      (∀ r ∈ src.routines, r.headerLine ≠ l.number → ∀ k ∈ src.lines,
        r.hasLine k.number = true → allMatches levelChange? (withoutNames k.masked) = []) ∧
      ¬ IsReported src.routines lead l := by
  decide +kernel

end Acceptance.Source
