import Mathlib.Algebra.BigOperators.Group.List.Basic
import Mathlib.Algebra.Ring.Int.Defs
import Acceptance.Proofs.Source.Step

/-!
# How far a routine reaches

Behind its header a routine stays open until a line leaves no level open, or, as long as no line has
changed the level, until another header comes. Both depend on the lines behind the header alone. A
line that opens and closes its levels changes none, so a body on one line does not count.

Main results:

* `ScanState.run_body`: a routine that has not ended is open with the level of its lines.
* `ScanState.exists_header_of_opened`: an open routine has not ended since its header.
-/

namespace Acceptance.Source

open Text

/-! ## Levels -/

/-- The level behind some lines, relative to the one before them. -/
def level (lines : List Line) : ℤ := (lines.map fun k => blockDelta k.masked).sum

/-- Whether one of some lines changes the level. -/
def hasBegun (lines : List Line) : Bool := lines.any fun k => blockDelta k.masked != 0

theorem level_concat (lines : List Line) (l : Line) :
    level (lines ++ [l]) = level lines + blockDelta l.masked := by
  simp [level]

theorem hasBegun_concat (lines : List Line) (l : Line) :
    hasBegun (lines ++ [l]) = (hasBegun lines || blockDelta l.masked != 0) := by
  simp [hasBegun]

/-- Whether a line ends the routine whose header stands before the given lines. -/
def Ends (body : List Line) (l : Line) : Prop :=
  if hasBegun (body ++ [l]) then level (body ++ [l]) ≤ 0 else isHeader l.masked = true

/-- Whether one of some lines ends the routine whose header stands before them. -/
def HasEnded (body : List Line) : Prop :=
  ∃ front l back, body = front ++ l :: back ∧ Ends front l

instance (body : List Line) (l : Line) : Decidable (Ends body l) := by
  unfold Ends
  infer_instance

instance (body : List Line) : Decidable (HasEnded body) :=
  decidable_of_iff (∃ i : Fin body.length, Ends (body.take i) body[i]) <| by
    constructor
    · rintro ⟨i, hi⟩
      exact ⟨body.take i, body[i], body.drop (i + 1), by simp, hi⟩
    · rintro ⟨front, l, back, rfl, hl⟩
      exact ⟨⟨front.length, by simp⟩, by simpa using hl⟩

theorem not_hasEnded_nil : ¬ HasEnded [] := by
  rintro ⟨front, l, back, he, -⟩
  exact List.append_ne_nil_of_right_ne_nil _ (List.cons_ne_nil _ _) he.symm

theorem hasEnded_concat {body : List Line} {l : Line} :
    HasEnded (body ++ [l]) ↔ HasEnded body ∨ Ends body l := by
  constructor
  · rintro ⟨front, k, back, he, hk⟩
    rcases List.eq_nil_or_concat back with rfl | ⟨back, m, rfl⟩
    · obtain ⟨rfl, hl⟩ := List.append_inj' he rfl
      obtain rfl := (List.cons.inj hl).1
      exact .inr hk
    · rw [List.concat_eq_append, ← List.cons_append, ← List.append_assoc] at he
      exact .inl ⟨front, k, back, (List.append_inj' he rfl).1, hk⟩
  · rintro (⟨front, k, back, rfl, hk⟩ | hl)
    · exact ⟨front, k, back ++ [l], by simp, hk⟩
    · exact ⟨body, l, [], rfl, hl⟩

/-- The first line that ends a routine. -/
theorem HasEnded.exists_first {body : List Line} (h : HasEnded body) :
    ∃ front l back, body = front ++ l :: back ∧ ¬ HasEnded front ∧ Ends front l := by
  induction body using List.reverseRecOn with
  | nil => exact absurd h not_hasEnded_nil
  | append_singleton body l ih =>
    by_cases hb : HasEnded body
    · obtain ⟨front, k, back, rfl, hf, hk⟩ := ih hb
      exact ⟨front, k, back ++ [l], by simp, hf, hk⟩
    · exact ⟨body, l, [], rfl, hb, (hasEnded_concat.1 h).resolve_left hb⟩

/-! ## The open routine -/

namespace ScanState

variable {s : ScanState} {r : Routine} {body : List Line} {l : Line}

/-- A line that does not end the routine raises the count of levels. -/
theorem read_of_not_ends (hs : s.opened = some ⟨r, level body, hasBegun body⟩)
    (h : ¬ Ends body l) :
    s.read l =
      ({ s with opened := some ⟨r, level (body ++ [l]), hasBegun (body ++ [l])⟩ }, none) := by
  unfold Ends at h
  by_cases hb : hasBegun (body ++ [l]) = true
  · rw [if_pos hb, level_concat] at h
    rw [hasBegun_concat, Bool.or_eq_true, bne_iff_ne] at hb
    rw [read_of_pos hs l hb.symm (by simpa using h), level_concat, hasBegun_concat]
    have hb' : (hasBegun body || blockDelta l.masked != 0) = true := by
      rwa [Bool.or_eq_true, bne_iff_ne]
    rw [hb']
  · rw [if_neg hb] at h
    rw [Bool.not_eq_true, hasBegun_concat, Bool.or_eq_false_iff, bne_eq_false_iff_eq] at hb
    obtain ⟨hbody, hd⟩ := hb
    have keep : ({ s with opened := some ⟨r, level body, hasBegun body⟩ } : ScanState) = s := by
      rw [← hs]
    rw [read_of_unstarted hs hbody l hd (by simpa using h), level_concat, hasBegun_concat, hd,
      add_zero, hbody, ← hbody]
    simp [keep]

/-- Behind the line that ends a routine, only a routine with its header on that line is open. -/
theorem opened_of_ends (hs : s.opened = some ⟨r, level body, hasBegun body⟩) (h : Ends body l)
    {o : OpenRoutine} (ho : (s.read l).1.opened = some o) :
    o.routine.headerLine = l.number ∧ o.depth = 0 ∧ o.started = false := by
  unfold Ends at h
  by_cases hb : hasBegun (body ++ [l]) = true
  · rw [if_pos hb, level_concat] at h
    rw [hasBegun_concat, Bool.or_eq_true, bne_iff_ne] at hb
    rw [read_of_le hs l hb.symm h] at ho
    cases ho
  · rw [if_neg hb] at h
    rw [Bool.not_eq_true, hasBegun_concat, Bool.or_eq_false_iff, bne_eq_false_iff_eq] at hb
    have hh : ¬ (⟨r, level body, hasBegun body⟩ : OpenRoutine).Holds l := by
      rintro (hk | hk | hk)
      · exact absurd (hb.1.symm.trans hk) (by decide)
      · exact hk hb.2
      · exact absurd (hk.symm.trans h) (by decide)
    rw [read_of_not_holds hs hh] at ho
    exact opened_readOutside rfl ho

/-- A routine that has not ended since its header is open. -/
theorem run_body (hs : s.opened = some ⟨r, 0, false⟩) (h : ¬ HasEnded body) :
    (s.run body).1.opened = some ⟨r, level body, hasBegun body⟩ := by
  induction body using List.reverseRecOn with
  | nil => exact hs
  | append_singleton body l ih =>
    rw [hasEnded_concat, not_or] at h
    rw [run_append, run_cons, read_of_not_ends (ih h.1) h.2]
    rfl

/-- No routine ends on lines that do not end the open one. -/
theorem run_body_ended (hs : s.opened = some ⟨r, 0, false⟩) (h : ¬ HasEnded body) :
    (s.run body).2 = [] := by
  induction body using List.reverseRecOn with
  | nil => rfl
  | append_singleton body l ih =>
    rw [hasEnded_concat, not_or] at h
    rw [run_append, ih h.1, run_cons, read_of_not_ends (run_body hs h.1) h.2]
    rfl

/-- Since the header of an open routine no line has ended it. -/
theorem exists_header_of_opened {lines : List Line} {o : OpenRoutine}
    (ho : (start.run lines).1.opened = some o) :
    ∃ before header body, lines = before ++ header :: body ∧
      o = ⟨o.routine, level body, hasBegun body⟩ ∧ o.routine.headerLine = header.number ∧
      ¬ HasEnded body := by
  induction lines using List.reverseRecOn generalizing o with
  | nil => cases ho
  | append_singleton lines l ih =>
    rw [run_append, run_cons] at ho
    -- a routine that opens on the last line has no lines behind its header yet
    have fresh (h : o.routine.headerLine = l.number ∧ o.depth = 0 ∧ o.started = false) :
        ∃ before header body, lines ++ [l] = before ++ header :: body ∧
          o = ⟨o.routine, level body, hasBegun body⟩ ∧ o.routine.headerLine = header.number ∧
          ¬ HasEnded body := by
      refine ⟨lines, l, [], rfl, ?_, h.1, not_hasEnded_nil⟩
      obtain ⟨routine, depth, started⟩ := o
      obtain ⟨-, rfl, rfl⟩ := h
      rfl
    cases hq : (start.run lines).1.opened with
    | none =>
      rw [read_of_closed hq] at ho
      exact fresh (opened_readOutside hq ho)
    | some q =>
      obtain ⟨before, header, body, rfl, hopen, hn, hended⟩ := ih hq
      rw [hopen] at hq
      by_cases he : Ends body l
      · exact fresh (opened_of_ends hq he ho)
      · rw [read_of_not_ends hq he] at ho
        cases ho
        refine ⟨before, header, body ++ [l], by simp, rfl, hn, ?_⟩
        rw [hasEnded_concat]
        exact not_or.2 ⟨hended, he⟩

end ScanState

end Acceptance.Source
