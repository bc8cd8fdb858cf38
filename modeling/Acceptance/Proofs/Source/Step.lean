import Mathlib.Data.List.TakeWhile
import Acceptance.Proofs.Source.Kind

/-!
# One step of the scan

A line has attribute lists in front and a rest. What the scan makes of it depends on the routine that
is open: the line may belong to that routine, or else it is read as a line outside of all bodies. As
long as a routine is open no test mark waits, so a mark that is read inside a routine is lost.

Main results:

* `ScanState.readOutside_eq`: what a line outside of bodies does.
* `ScanState.read_cases`: what a line does in any state.
* `ScanState.read_congr`: when two lines do the same.
* `ScanState.run_idle`, `ScanState.run_below`: what the lines so far leave.
-/

namespace Acceptance.Source

open Text

/-! ## The parts of a line -/

namespace Line

/-- The attribute lists that a line starts with. -/
def lists (l : Line) : List Char :=
  if opensBracket l.masked then (splitAttributes l.masked).1 else []

/-- The masked line behind its attribute lists. -/
def rest (l : Line) : List Char :=
  if opensBracket l.masked then (splitAttributes l.masked).2 else l.masked

/-- The line as written behind its attribute lists. -/
def rawRest (l : Line) : List Char :=
  if opensBracket l.masked then (dropBytes? (byteLength l.lists) l.raw).getD [] else l.raw

/-- The names of the attributes that a line starts with. -/
def attributes (l : Line) : List (List Char) := attributeNames l.lists

/-- Whether one of the attributes of a line marks a test. -/
def marks (l : Line) : Bool := l.attributes.any marksTest

/-- Whether a line can stand between a test mark and its header: it has attributes only, or nothing
but comments. -/
def isLead (l : Line) : Bool := allBlank l.rest

/-- Whether a line is the header of a procedure, maybe behind attributes. -/
def isProcedure (l : Line) : Bool := isProcedureHeader l.rest

/-- The name that is read from the header of a procedure, as written. -/
def name? (l : Line) : Option (List Char) := firstMatch? procedureName? l.rawRest

end Line

theorem isHeader_of_allBlank {s : List Char} (h : allBlank s = true) : isHeader s = false := by
  have hs : skipBlanks s = [] :=
    List.dropWhile_eq_nil_iff.2 fun c hc => List.all_eq_true.1 h c hc
  rw [isHeader, isProcedureHeader, triggerName?, hs]
  rfl

theorem isHeader_of_opensBracket {s : List Char} (h : opensBracket s = true) :
    isHeader s = false := by
  obtain ⟨t, ht⟩ : ∃ t, skipBlanks s = '[' :: t := by
    rw [opensBracket, beq_iff_eq] at h
    cases hs : skipBlanks s with
    | nil =>
      rw [hs] at h
      cases h
    | cons c t =>
      rw [hs] at h
      exact ⟨t, by rw [Option.some.inj h]⟩
  rw [isHeader, isProcedureHeader, triggerName?, ht]
  rfl

namespace Line

variable {l : Line}

/-- A line of attributes or comments is no header. -/
theorem isHeader_of_isLead (h : l.isLead = true) : isHeader l.masked = false := by
  by_cases hb : opensBracket l.masked = true
  · exact isHeader_of_opensBracket hb
  · rw [isLead, rest, if_neg hb] at h
    exact isHeader_of_allBlank h

theorem isLead_of_isProcedure (h : l.isProcedure = true) : l.isLead = false := by
  by_contra hl
  have := isHeader_of_allBlank (Bool.not_eq_false _ ▸ hl : l.isLead = true)
  rw [isHeader, Bool.or_eq_false_iff] at this
  exact absurd (this.1.symm.trans h) (by decide)

theorem header?_of_isProcedure (h : l.isProcedure = true) :
    header? l.rawRest l.rest = l.name?.map fun name => (name, .procedure) :=
  if_pos h

end Line

/-- Whether a line belongs to the open routine: its body has started, or starts here, or the line is
no header without attributes. -/
def OpenRoutine.Holds (o : OpenRoutine) (l : Line) : Prop :=
  o.started = true ∨ blockDelta l.masked ≠ 0 ∨ isHeader l.masked = false

/-- Whether two lines are the same for the scan, as far as it does not read a header from them. -/
structure Line.ReadsAs (k l : Line) : Prop where
  number : k.number = l.number
  delta : blockDelta k.masked = blockDelta l.masked
  isHeader : isHeader k.masked = isHeader l.masked
  attributes : k.attributes = l.attributes
  isLead : k.isLead = l.isLead

/-! ## Lines outside of bodies -/

namespace ScanState

variable {s : ScanState} {l : Line}

/-- The state with the attributes of a line added to those that wait. -/
def collect (s : ScanState) (l : Line) : ScanState :=
  ⟨s.attributes ++ l.attributes, if l.marks then some l.number else s.testLine, s.opened⟩

/-- Outside of bodies the attributes of a line are added to those that wait; then comes the rest of
the line. -/
theorem readOutside_eq (s : ScanState) (l : Line) :
    s.readOutside l =
      if l.isLead then s.collect l
      else readOutside.readHeader (s.collect l) l.number l.rawRest l.rest := by
  by_cases hb : opensBracket l.masked = true
  · unfold readOutside collect Line.isLead Line.marks Line.attributes Line.rawRest Line.rest
      Line.lists
    rw [if_pos hb, if_pos hb, if_pos hb, if_pos (by simpa [opensBracket] using hb)]
  · have hcollect : s.collect l = s := by
      unfold collect Line.marks Line.attributes Line.lists
      rw [if_neg hb]
      exact congrArg (fun a => (⟨a, s.testLine, s.opened⟩ : ScanState)) (List.append_nil _)
    have hread : s.readOutside l = readOutside.readHeader s l.number l.raw l.masked := by
      rw [readOutside, if_neg (by simpa [opensBracket] using hb)]
    rw [hread, hcollect, Line.rawRest, Line.isLead, Line.rest, if_neg hb, if_neg hb]
    by_cases ha : allBlank l.masked = true
    · rw [if_pos ha, readOutside.readHeader, header?_eq_none (isHeader_of_allBlank ha)]
      exact if_pos ha
    · rw [if_neg ha]

theorem readOutside_of_isLead (h : l.isLead = true) : s.readOutside l = s.collect l := by
  rw [readOutside_eq, if_pos h]

/-- A line with more than attributes takes those that wait, or takes them away. -/
theorem readOutside_of_not_isLead (h : l.isLead = false) :
    s.readOutside l =
      match header? l.rawRest l.rest with
      | some (name, kind) =>
        ⟨[], none, some ⟨⟨name, kind, (s.collect l).attributes, (s.collect l).testLine, l.number,
          l.number⟩, 0, false⟩⟩
      | none => ⟨[], none, s.opened⟩ := by
  rw [readOutside_eq, if_neg (by simp [h]), readOutside.readHeader]
  cases header? l.rawRest l.rest with
  | some header => rfl
  | none => exact if_neg (by rw [← Line.isLead, h]; exact Bool.false_ne_true)

theorem testLine_readOutside (h : l.isLead = false) : (s.readOutside l).testLine = none := by
  rw [readOutside_of_not_isLead h]
  cases header? l.rawRest l.rest <;> rfl

/-- A line outside of bodies opens no routine but its own. -/
theorem opened_readOutside (hs : s.opened = none) {o : OpenRoutine}
    (ho : (s.readOutside l).opened = some o) :
    o.routine.headerLine = l.number ∧ o.depth = 0 ∧ o.started = false := by
  cases hl : l.isLead with
  | true =>
    rw [readOutside_of_isLead hl, collect, hs] at ho
    cases ho
  | false =>
    rw [readOutside_of_not_isLead hl] at ho
    cases hh : header? l.rawRest l.rest with
    | none =>
      rw [hh, hs] at ho
      cases ho
    | some header =>
      rw [hh] at ho
      cases ho
      exact ⟨rfl, rfl, rfl⟩

/-! ## Lines while a routine is open -/

/-- A line that belongs to the open routine ends it or leaves it open. -/
theorem read_of_holds {o : OpenRoutine} (hs : s.opened = some o) (h : o.Holds l) :
    (∃ p : OpenRoutine, p.routine = o.routine ∧
      s.read l = ({ s with opened := some p }, none)) ∨
    s.read l = ({ s with opened := none }, some { o.routine with endLine := l.number }) := by
  have keep : s = { s with opened := some o } := by rw [← hs]
  by_cases hd : blockDelta l.masked ≠ 0 ∨ o.started = true
  · by_cases hp : 0 < o.depth + blockDelta l.masked
    · exact .inl ⟨⟨o.routine, o.depth + blockDelta l.masked, true⟩, rfl, read_of_pos hs l hd hp⟩
    · exact .inr (read_of_le hs l hd (Int.not_lt.1 hp))
  · push Not at hd
    have hstarted : o.started = false := by simpa using hd.2
    refine .inl ⟨o, rfl, ?_⟩
    rcases h with h | h | h
    · exact absurd h hd.2
    · exact absurd hd.1 h
    · rw [← keep]
      exact read_of_unstarted hs hstarted l hd.1 h

/-- A header that does not belong to the open routine ends it on the line before. -/
theorem read_of_not_holds {o : OpenRoutine} (hs : s.opened = some o) (h : ¬ o.Holds l) :
    s.read l = (({ s with opened := none } : ScanState).readOutside l,
      some { o.routine with endLine := max (l.number - 1) o.routine.headerLine }) := by
  unfold OpenRoutine.Holds at h
  push Not at h
  obtain ⟨hstarted, hd, hh⟩ := h
  rw [read, hs]
  simp only
  rw [if_neg (by simp [hd, hstarted]), if_pos (by simpa using hh)]

/-- A line that does not belong to an open routine is read as one outside of bodies. -/
theorem read_of_free (h : ∀ o, s.opened = some o → ¬ o.Holds l) :
    (s.read l).1 = ({ s with opened := none } : ScanState).readOutside l := by
  cases ho : s.opened with
  | none =>
    have hs : ({ s with opened := none } : ScanState) = s := by rw [← ho]
    rw [read_of_closed ho, hs]
  | some o => rw [read_of_not_holds ho (h o ho)]

/-- What a line does: it belongs to the open routine, which goes on or ends, or it is read outside of
bodies, maybe behind the routine that it ends. -/
theorem read_cases (s : ScanState) (l : Line) :
    (∃ o p : OpenRoutine, s.opened = some o ∧ o.Holds l ∧ p.routine = o.routine ∧
      s.read l = ({ s with opened := some p }, none)) ∨
    (∃ o : OpenRoutine, s.opened = some o ∧ o.Holds l ∧
      s.read l = ({ s with opened := none }, some { o.routine with endLine := l.number })) ∨
    (s.opened = none ∧ s.read l = (s.readOutside l, none)) ∨
    ∃ o : OpenRoutine, s.opened = some o ∧ ¬ o.Holds l ∧
      s.read l = (({ s with opened := none } : ScanState).readOutside l,
        some { o.routine with endLine := max (l.number - 1) o.routine.headerLine }) := by
  cases ho : s.opened with
  | none => exact .inr (.inr (.inl ⟨rfl, read_of_closed ho l⟩))
  | some o =>
    by_cases hh : o.Holds l
    · rcases read_of_holds ho hh with ⟨p, hp, hr⟩ | hr
      · exact .inl ⟨o, p, rfl, hh, hp, hr⟩
      · exact .inr (.inl ⟨o, rfl, hh, hr⟩)
    · exact .inr (.inr (.inr ⟨o, rfl, hh, read_of_not_holds ho hh⟩))

/-- Only the open routine can end. -/
theorem headerLine_of_mem_read {r : Routine} (h : r ∈ (s.read l).2) :
    ∃ o, s.opened = some o ∧ r.headerLine = o.routine.headerLine := by
  obtain ⟨o, p, -, -, -, hr⟩ | ⟨o, ho, -, hr⟩ | ⟨-, hr⟩ | ⟨o, ho, -, hr⟩ := s.read_cases l
  · rw [hr] at h
    cases h
  · rw [hr] at h
    cases h
    exact ⟨o, ho, rfl⟩
  · rw [hr] at h
    cases h
  · rw [hr] at h
    cases h
    exact ⟨o, ho, rfl⟩

/-- Outside of bodies a line of attributes adds them. -/
theorem read_lead (hs : s.opened = none) (h : l.isLead = true) : s.read l = (s.collect l, none) := by
  rw [read_of_closed hs, readOutside_of_isLead h]

/-- Inside a routine a line of attributes adds nothing. -/
theorem testLine_read_lead {o : OpenRoutine} (hs : s.opened = some o) (h : l.isLead = true) :
    (s.read l).1.testLine = s.testLine := by
  have hh : o.Holds l := .inr (.inr (Line.isHeader_of_isLead h))
  rcases read_of_holds hs hh with ⟨p, -, hr⟩ | hr
  · rw [hr]
  · rw [hr]

/-! ## Lines that do the same -/

variable {k : Line}

theorem collect_congr (h : k.ReadsAs l) (s : ScanState) : s.collect k = s.collect l := by
  rw [collect, collect, Line.marks, Line.marks, h.attributes, h.number]

theorem readOutside_congr (h : k.ReadsAs l) (s : ScanState)
    (hh : k.isLead = false → header? k.rawRest k.rest = header? l.rawRest l.rest) :
    s.readOutside k = s.readOutside l := by
  cases hl : k.isLead with
  | true =>
    rw [readOutside_of_isLead hl, readOutside_of_isLead (h.isLead ▸ hl), collect_congr h]
  | false =>
    rw [readOutside_of_not_isLead hl, readOutside_of_not_isLead (h.isLead ▸ hl),
      collect_congr h, hh hl, h.number]

/-- The scan goes on in the same way if it reads the same header where the line is outside of
bodies. -/
theorem read_congr (h : k.ReadsAs l) (s : ScanState)
    (hh : k.isLead = false → (∀ o, s.opened = some o → ¬ o.Holds k) →
      header? k.rawRest k.rest = header? l.rawRest l.rest) : s.read k = s.read l := by
  cases ho : s.opened with
  | none =>
    rw [read_of_closed ho, read_of_closed ho]
    refine congrArg (·, none) (readOutside_congr h s fun hl => hh hl fun o hs => ?_)
    rw [ho] at hs
    cases hs
  | some o =>
    have hiff : o.Holds k ↔ o.Holds l := by
      rw [OpenRoutine.Holds, OpenRoutine.Holds, h.delta, h.isHeader]
    by_cases hk : o.Holds k
    · -- inside the routine only levels and headers without attributes matter
      rw [read, read, ho, h.number, h.delta]
      simp only
      by_cases hd : blockDelta l.masked ≠ 0 ∨ o.started = true
      · rw [if_pos hd, if_pos hd]
      · have hheader : Source.isHeader l.masked = false := by
          rcases hiff.1 hk with hs | hb | hb
          · exact absurd (.inr hs) hd
          · exact absurd (.inl hb) hd
          · exact hb
        rw [if_neg hd, if_neg hd, if_neg (by simp [h.isHeader, hheader]),
          if_neg (by simp [hheader])]
    · rw [read_of_not_holds ho hk, read_of_not_holds ho (mt hiff.2 hk), h.number]
      refine congrArg (·, _) (readOutside_congr h _ fun hl => hh hl fun q hq => ?_)
      obtain rfl : o = q := Option.some.inj (ho.symm.trans hq)
      exact hk

/-! ## What some lines leave -/

/-- As long as a routine is open no test mark waits. -/
def Idle (s : ScanState) : Prop := s.opened ≠ none → s.testLine = none

theorem Idle.testLine_of_opened (h : s.Idle) {o : OpenRoutine} (ho : s.opened = some o) :
    s.testLine = none := by
  apply h
  rw [ho]
  exact Option.some_ne_none o

theorem idle_readOutside (hs : s.opened = none) : (s.readOutside l).Idle := by
  intro ho
  cases hl : l.isLead with
  | true =>
    rw [readOutside_of_isLead hl] at ho
    exact absurd hs ho
  | false => exact testLine_readOutside hl

theorem read_idle (h : s.Idle) : (s.read l).1.Idle := by
  obtain ⟨o, p, ho, -, -, hr⟩ | ⟨o, ho, -, hr⟩ | ⟨hs, hr⟩ | ⟨o, ho, -, hr⟩ := s.read_cases l
  · rw [hr]
    exact fun _ => h.testLine_of_opened ho
  · rw [hr]
    exact fun _ => h.testLine_of_opened ho
  · rw [hr]
    exact idle_readOutside hs
  · rw [hr]
    exact idle_readOutside rfl

theorem run_idle {lines : List Line} (h : s.Idle) : (s.run lines).1.Idle := by
  induction lines generalizing s with
  | nil => exact h
  | cons l lines ih =>
    rw [run_cons]
    exact ih (read_idle h)

/-- No test mark waits behind a line with more than attributes. -/
theorem testLine_read (hs : s.Idle) (h : l.isLead = false) : (s.read l).1.testLine = none := by
  obtain ⟨o, p, ho, -, -, hr⟩ | ⟨o, ho, -, hr⟩ | ⟨-, hr⟩ | ⟨o, -, -, hr⟩ := s.read_cases l
  · rw [hr]
    exact hs.testLine_of_opened ho
  · rw [hr]
    exact hs.testLine_of_opened ho
  · rw [hr]
    exact testLine_readOutside h
  · rw [hr]
    exact testLine_readOutside h

/-- What is open or has ended lies before a given line. -/
def Below (n : ℕ) (s : ScanState) : Prop := ∀ o ∈ s.opened, o.routine.headerLine < n

theorem below_readOutside {n : ℕ} (hs : s.opened = none) (hl : l.number < n) :
    (s.readOutside l).Below n := by
  intro o ho
  rw [(opened_readOutside hs (Option.mem_def.1 ho)).1]
  exact hl

theorem read_below {n : ℕ} (hs : s.Below n) (hl : l.number < n) :
    (s.read l).1.Below n ∧ ∀ r ∈ (s.read l).2, r.headerLine < n ∧ r.endLine < n := by
  obtain ⟨o, p, ho, -, hp, hr⟩ | ⟨o, ho, -, hr⟩ | ⟨hn, hr⟩ | ⟨o, ho, -, hr⟩ := s.read_cases l
  · rw [hr]
    constructor
    · rintro q ⟨⟩
      rw [hp]
      exact hs o ho
    · rintro r ⟨⟩
  · rw [hr]
    constructor
    · rintro q ⟨⟩
    · rintro r ⟨⟩
      exact ⟨hs o ho, hl⟩
  · rw [hr]
    refine ⟨below_readOutside hn hl, ?_⟩
    rintro r ⟨⟩
  · have hlt : o.routine.headerLine < n := hs o ho
    rw [hr]
    refine ⟨below_readOutside rfl hl, ?_⟩
    rintro r ⟨⟩
    refine ⟨hlt, ?_⟩
    show max (l.number - 1) o.routine.headerLine < n
    omega

theorem run_below {n : ℕ} {lines : List Line} (hs : s.Below n)
    (hl : ∀ l ∈ lines, l.number < n) :
    (s.run lines).1.Below n ∧ ∀ r ∈ (s.run lines).2, r.headerLine < n ∧ r.endLine < n := by
  induction lines generalizing s with
  | nil => exact ⟨hs, fun r hr => absurd hr List.not_mem_nil⟩
  | cons l lines ih =>
    obtain ⟨hnext, hended⟩ := read_below hs (hl l List.mem_cons_self)
    obtain ⟨hfinal, hmore⟩ := ih hnext fun k hk => hl k (List.mem_cons_of_mem _ hk)
    rw [run_cons]
    refine ⟨hfinal, fun r hr => ?_⟩
    rcases List.mem_append.1 hr with hr | hr
    · exact hended r (Option.mem_toList.1 hr)
    · exact hmore r hr

end ScanState

end Acceptance.Source
