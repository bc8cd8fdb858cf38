import Mathlib.Data.List.Basic
import Acceptance.Proofs.Source.Lines
import Acceptance.Proofs.Source.Report

/-!
# The order of routines

Each line of a source belongs to one routine at most. A routine starts with the line of its test mark
or its header, and its header stands no later than its end; the next routine, its test mark included,
starts behind that end. This holds however a routine ends: with the line that closes its levels, at
another header, or with the source.

Main results:

* `ScanState.read_within`: what one line does to the lines that are kept.
* `spans_of_mem_routines`: the lines of a routine are in order, and lines of the source.
* `pairwise_routines`: no routine reaches into a later one.
-/

namespace Acceptance.Source

theorem one_le_number {s : Source} {l : Line} (h : l ∈ s.lines) : 1 ≤ l.number :=
  le_of_mem_zipLines h

/-- No line has a greater number than there are lines. -/
theorem number_le_length {s : Source} {l : Line} (h : l ∈ s.lines) : l.number ≤ s.lines.length :=
  Nat.le_of_lt_succ (number_lt_of_mem_zipLines h)

/-- Whether the lines of a routine are in order, behind the line `first` and up to the line
`last`. -/
structure Routine.Spans (r : Routine) (first last : ℕ) : Prop where
  first_lt : first < r.anchorLine
  anchor_le : r.anchorLine ≤ r.headerLine
  header_le : r.headerLine ≤ r.endLine
  end_le : r.endLine ≤ last

namespace ScanState

/-- Whether the test mark and the open routine of a state stand behind the line `first` and before
the line `next`. -/
structure Within (s : ScanState) (first next : ℕ) : Prop where
  testLine : ∀ t ∈ s.testLine, first < t ∧ t < next
  opened : ∀ o ∈ s.opened, first < o.routine.anchorLine ∧
    o.routine.anchorLine ≤ o.routine.headerLine ∧ o.routine.headerLine < next

variable {s : ScanState} {l : Line} {first next : ℕ}

/-- A line outside of bodies leaves a mark or a routine of its own, besides the marks before it. -/
theorem readOutside_within (hs : s.opened = none)
    (ht : ∀ t ∈ s.testLine, first < t ∧ t ≤ l.number) (hl : first < l.number) :
    (s.readOutside l).Within first (l.number + 1) := by
  have collected : ∀ t ∈ (s.collect l).testLine, first < t ∧ t ≤ l.number := by
    intro t htl
    rw [collect] at htl
    split_ifs at htl
    · cases htl
      exact ⟨hl, le_rfl⟩
    · exact ht t htl
  cases hlead : l.isLead with
  | true =>
    rw [readOutside_of_isLead hlead]
    refine ⟨fun t htl => ?_, fun o ho => ?_⟩
    · have := collected t htl
      omega
    · rw [collect, hs] at ho
      cases ho
  | false =>
    rw [readOutside_of_not_isLead hlead]
    cases header? l.rawRest l.rest with
    | none => exact ⟨by rintro t ⟨⟩, by rw [hs]; rintro o ⟨⟩⟩
    | some header =>
      refine ⟨by rintro t ⟨⟩, ?_⟩
      rintro o ⟨⟩
      -- the routine starts with the mark that waited for it
      show first < (s.collect l).testLine.getD l.number ∧
        (s.collect l).testLine.getD l.number ≤ l.number ∧ l.number < l.number + 1
      cases htl : (s.collect l).testLine with
      | none => exact ⟨hl, le_rfl, Nat.lt_succ_self _⟩
      | some t =>
        obtain ⟨h1, h2⟩ := collected t htl
        exact ⟨h1, h2, Nat.lt_succ_self _⟩

/-- What a line leaves stands behind the routine that it ends, and that routine is in order. -/
theorem read_within (h : s.Within first next) (hi : s.Idle) (hfirst : first < next)
    (hl : next ≤ l.number) :
    ∃ behind, first ≤ behind ∧ behind ≤ l.number ∧ (s.read l).1.Within behind (l.number + 1) ∧
      ∀ r ∈ (s.read l).2, r.Spans first behind := by
  obtain ⟨o, p, ho, -, hp, hr⟩ | ⟨o, ho, -, hr⟩ | ⟨hs, hr⟩ | ⟨o, ho, -, hr⟩ := s.read_cases l
  · -- the open routine goes on
    rw [hr]
    refine ⟨first, le_rfl, by omega, ⟨fun t ht => ?_, ?_⟩, by rintro r ⟨⟩⟩
    · have := h.testLine t ht
      omega
    · rintro q ⟨⟩
      have := h.opened o ho
      rw [hp]
      omega
  · -- the line is the last one of the open routine
    rw [hr]
    have hnone : s.testLine = none := hi.testLine_of_opened ho
    obtain ⟨h1, h2, h3⟩ := h.opened o ho
    refine ⟨l.number, by omega, le_rfl, ⟨?_, by rintro q ⟨⟩⟩, ?_⟩
    · show ∀ t ∈ s.testLine, _
      rw [hnone]
      rintro t ⟨⟩
    · rintro r ⟨⟩
      have header_le : o.routine.headerLine ≤ l.number := by omega
      exact ⟨h1, h2, header_le, le_rfl⟩
  · rw [hr]
    refine ⟨first, le_rfl, by omega, readOutside_within hs (fun t ht => ?_) (by omega),
      by rintro r ⟨⟩⟩
    have := h.testLine t ht
    omega
  · -- the line is a header, so the open routine ends on the line before
    rw [hr]
    have hnone : s.testLine = none := hi.testLine_of_opened ho
    obtain ⟨h1, h2, h3⟩ := h.opened o ho
    have hmax : max (l.number - 1) o.routine.headerLine = l.number - 1 := by omega
    refine ⟨l.number - 1, by omega, by omega, readOutside_within rfl ?_ (by omega), ?_⟩
    · show ∀ t ∈ s.testLine, _
      rw [hnone]
      rintro t ⟨⟩
    · rintro r ⟨⟩
      have header_le : o.routine.headerLine ≤ max (l.number - 1) o.routine.headerLine :=
        Nat.le_max_right _ _
      exact ⟨h1, h2, header_le, hmax.le⟩

/-- The routines that some lines report are in order, one behind the other. -/
theorem scan_within {lines : List Line} {last bound : ℕ} (h : s.Within first next) (hi : s.Idle)
    (hfirst : first < next) (hnext : next ≤ last + 1) (hlast : last ≤ bound)
    (hasc : Ascends lines) (hlines : ∀ k ∈ lines, next ≤ k.number ∧ k.number ≤ bound) :
    (∀ r ∈ s.scan last lines, r.Spans first bound) ∧
      (s.scan last lines).Pairwise fun r q => r.endLine < q.anchorLine := by
  induction lines generalizing s first next last with
  | nil =>
    have hscan : s.scan last [] = (s.finish last).toList := rfl
    rw [hscan, finish]
    cases ho : s.opened with
    | none => exact ⟨by simp, by simp⟩
    | some o =>
      obtain ⟨h1, h2, h3⟩ := h.opened o ho
      refine ⟨fun r hr => ?_, List.pairwise_singleton _ _⟩
      obtain rfl := List.mem_singleton.1 hr
      have end_le : max last o.routine.headerLine ≤ bound := by omega
      exact ⟨h1, h2, Nat.le_max_right _ _, end_le⟩
  | cons l lines ih =>
    obtain ⟨hl, hasc⟩ := List.pairwise_cons.1 hasc
    obtain ⟨hnumber, hbound⟩ := hlines l List.mem_cons_self
    obtain ⟨behind, hle, hbehind, hstate, hended⟩ := read_within h hi hfirst hnumber
    obtain ⟨hspans, hpairs⟩ := ih hstate (read_idle hi) (by omega) le_rfl hbound hasc
      fun k hk => ⟨hl k hk, (hlines k (List.mem_cons_of_mem l hk)).2⟩
    have hscan : s.scan last (l :: lines) =
        (s.read l).2.toList ++ (s.read l).1.scan l.number lines := rfl
    rw [hscan]
    constructor
    · intro r hr
      rcases List.mem_append.1 hr with hr | hr
      · have hr := hended r (Option.mem_toList.1 hr)
        exact { hr with end_le := by have := hr.end_le; omega }
      · have hr := hspans r hr
        exact { hr with first_lt := by have := hr.first_lt; omega }
    · rw [List.pairwise_append]
      refine ⟨?_, hpairs, fun r hr q hq => ?_⟩
      · cases (s.read l).2 <;> simp
      · have hr := (hended r (Option.mem_toList.1 hr)).end_le
        have hq := (hspans q hq).first_lt
        omega

end ScanState

/-! ## The routines of a source -/

theorem routines_within (s : Source) :
    (∀ r ∈ s.routines, r.Spans 0 s.lines.length) ∧
      s.routines.Pairwise fun r q => r.endLine < q.anchorLine := by
  have hstart : ScanState.start.Within 0 1 := ⟨by rintro t ⟨⟩, by rintro o ⟨⟩⟩
  have hidle : ScanState.start.Idle := fun _ => rfl
  exact ScanState.scan_within hstart hidle Nat.one_pos le_rfl (Nat.zero_le _) (ascends_lines s)
    fun k hk => ⟨one_le_number hk, number_le_length hk⟩

theorem spans_of_mem_routines {s : Source} {r : Routine} (h : r ∈ s.routines) :
    r.Spans 0 s.lines.length :=
  (routines_within s).1 r h

theorem one_le_anchorLine {s : Source} {r : Routine} (h : r ∈ s.routines) : 1 ≤ r.anchorLine :=
  (spans_of_mem_routines h).first_lt

theorem pairwise_routines (s : Source) :
    s.routines.Pairwise fun r q => r.endLine < q.anchorLine :=
  (routines_within s).2

end Acceptance.Source
