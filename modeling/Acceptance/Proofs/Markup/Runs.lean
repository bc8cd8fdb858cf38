import Mathlib.Data.List.Chain
import Acceptance.Markup.Bracket
import Acceptance.Proofs.Markup.Forward

/-!
# Runs keep their order

The tokens of a passage are read from left to right. A run is a row of places of the passage, the
runs of a passage come one behind the other, and a chain leaves runs out but does not move them.

Main results:

* `infix_of_mem_runs`: the marks of a run stand in a row.
* `runs_sublist`: the runs of a passage come one behind the other.
* `sublist_of_mem_chains`: a chain holds runs of its passage in order.
-/

namespace Acceptance.Markup

open Place
open scoped List

variable {text : List Char}

/-- The places of some marks. -/
def marked (marks : List (Mark text)) : List (Place text) := marks.map (·.toPlace)

/-- The places of the marks of some runs. -/
def allMarked (rs : List (Run text)) : List (Place text) := rs.flatMap fun r => marked r.marks

/-- The run that a token is. -/
def Token.run? (t : Token text) : Option (Run text) :=
  match t.kind with
  | .run r => some r
  | _ => none

/-- The runs among some tokens. -/
def runsOf (ts : List (Token text)) : List (Run text) := ts.filterMap Token.run?

/-! ## Tokens -/

theorem marked_filterMap {s : List (Place text)} (h : ∀ p ∈ s, p.char = '*' ∨ p.char = '_') :
    marked (s.filterMap Mark.ofPlace?) = s := by
  induction s with
  | nil => rfl
  | cons p s ih =>
    have hp := h p List.mem_cons_self
    have hone : Mark.ofPlace? p = some ⟨p, hp⟩ := by rw [Mark.ofPlace?, dif_pos hp]
    rw [List.filterMap_cons_some hone, marked, List.map_cons]
    exact congrArg (p :: ·) (ih fun q hq => h q (List.mem_cons_of_mem p hq))

theorem Run.marks_of_ofMarks? {before : Option Char} {marks : List (Mark text)} {r : Run text}
    (h : ofMarks? before marks = some r) : r.marks = marks := by
  rw [ofMarks?] at h
  split at h
  · obtain rfl := Option.some.inj h
    rfl
  · cases h

theorem take_runLength (c : Char) (s : List (Place text)) :
    ∀ p ∈ s.take (runLength c s), p.char = c := by
  intro p hp
  have hrun := List.prefix_iff_eq_take.1 (List.takeWhile_prefix (l := s) (·.char == c))
  rw [runLength, ← hrun] at hp
  exact eq_of_beq (List.mem_takeWhile_imp (p := fun p : Place text => p.char == c) hp)

/-- A run takes a row of places from where it starts. -/
theorem marked_of_tokenAt {before : Option Char} {p : Place text} {rest : List (Place text)}
    {r : Run text} {more : ℕ} (h : tokenAt before p rest = (some (.run r), more)) :
    marked r.marks = p :: rest.take more := by
  simp only [tokenAt] at h
  split_ifs at h <;> try simp at h
  next hmark =>
    have hp : p.char = '*' ∨ p.char = '_' := by simpa using hmark
    split at h
    · next r' hr =>
      split_ifs at h
      · obtain ⟨rfl, rfl⟩ : r' = r ∧ runLength p.char rest = more := by simpa using h
        rw [Run.marks_of_ofMarks? hr, marked_filterMap]
        rintro q hq
        rcases List.mem_cons.1 hq with rfl | hq
        · exact hp
        · rw [take_runLength p.char rest q hq]
          exact hp
      · simp at h
    · simp at h

theorem runsOf_cons (t : Token text) (ts : List (Token text)) :
    runsOf (t :: ts) = t.run?.toList ++ runsOf ts := by
  rw [runsOf, List.filterMap_cons]
  cases t.run? <;> rfl

theorem allMarked_append (rs qs : List (Run text)) :
    allMarked (rs ++ qs) = allMarked rs ++ allMarked qs := List.flatMap_append

/-- What a token adds to the runs are places from where it starts on. -/
theorem allMarked_run?_sublist {before : Option Char} {p : Place text} {rest : List (Place text)}
    {kind : TokenKind text} {more : ℕ} (h : tokenAt before p rest = (some kind, more)) :
    allMarked (Token.run? ⟨kind, rest.drop more⟩).toList <+ p :: rest.take more := by
  cases kind with
  | run r =>
    have hr := marked_of_tokenAt h
    show allMarked [r] <+ _
    rw [allMarked, List.flatMap_singleton, hr]
  | ticks count escaped => exact List.nil_sublist _
  | angle place => exact List.nil_sublist _
  | opening image => exact List.nil_sublist _
  | closing place => exact List.nil_sublist _

/-- The runs of a passage come one behind the other. -/
theorem runs_sublist (before : Option Char) (skip : ℕ) (content : List (Place text)) :
    allMarked (runsOf (tokensFrom before skip content)) <+ content.drop skip := by
  induction content generalizing before skip with
  | nil =>
    rw [tokensFrom]
    exact List.nil_sublist _
  | cons p rest ih =>
    cases skip with
    | succ skip => exact ih (some p.char) skip
    | zero =>
      rw [tokensFrom]
      cases h : tokenAt before p rest with
      | mk kind? more =>
        have hrest := ih (some p.char) more
        cases kind? with
        | none => exact hrest.trans ((List.drop_sublist more rest).trans (List.sublist_cons_self p _))
        | some kind =>
          have hsplit : p :: rest = (p :: rest.take more) ++ rest.drop more := by
            rw [List.cons_append, List.take_append_drop]
          show allMarked (runsOf (_ :: _)) <+ p :: rest
          rw [runsOf_cons, allMarked_append, hsplit]
          exact (allMarked_run?_sublist h).append hrest

/-- The marks of a run stand in a row of places of the passage. -/
theorem infix_of_mem_runs {before : Option Char} {skip : ℕ} {content : List (Place text)}
    {r : Run text} (h : r ∈ runsOf (tokensFrom before skip content)) :
    marked r.marks <:+: content := by
  induction content generalizing before skip with
  | nil =>
    rw [tokensFrom] at h
    cases h
  | cons p rest ih =>
    cases skip with
    | succ skip => exact (ih h).trans (List.suffix_cons p rest).isInfix
    | zero =>
      rw [tokensFrom] at h
      cases hk : tokenAt before p rest with
      | mk kind? more =>
        rw [hk] at h
        cases kind? with
        | none => exact (ih h).trans (List.suffix_cons p rest).isInfix
        | some kind =>
          rw [runsOf_cons] at h
          rcases List.mem_append.1 h with h | h
          · cases kind with
            | run r' =>
              obtain rfl : r = r' := List.mem_singleton.1 h
              rw [marked_of_tokenAt hk]
              exact List.IsPrefix.isInfix
                ((List.prefix_cons_inj p).2 (List.take_prefix more rest))
            | ticks count escaped => cases h
            | angle place => cases h
            | opening image => cases h
            | closing place => cases h
          · exact (ih h).trans (List.suffix_cons p rest).isInfix

/-! ## Chains -/

namespace Reading

/-- The runs that are not in the text of a link, the last one first. -/
def pending (s : Reading text) : List (Run text) := s.brackets.flatMap (·.runs) ++ s.runs

/-- Whether a reading holds runs of `done` only, in their order. -/
structure Holds (s : Reading text) (done : List (Run text)) : Prop where
  pending : s.pending.reverse <+ done
  finished : ∀ c ∈ s.finished, c <+ done

variable {s : Reading text} {done : List (Run text)}

theorem pending_push (rs : List (Run text)) : (s.push rs).pending = rs ++ s.pending := by
  obtain ⟨brackets, runs, finished, room⟩ := s
  cases brackets with
  | nil => rfl
  | cons b more =>
    show (rs ++ b.runs) ++ more.flatMap (·.runs) ++ runs = rs ++ (b.runs ++ more.flatMap (·.runs) ++ runs)
    rw [List.append_assoc, List.append_assoc, List.append_assoc]

theorem Holds.mono (h : s.Holds done) {more : List (Run text)} (hm : done <+ more) : s.Holds more :=
  ⟨h.pending.trans hm, fun c hc => (h.finished c hc).trans hm⟩

theorem Holds.skipTo (h : s.Holds done) (room : ℕ) : (s.skipTo room).Holds done :=
  ⟨h.pending, h.finished⟩

/-- A closing bracket moves no run out of its order. -/
theorem Holds.close (h : s.Holds done) (labels : List (List Char)) (p : Passage text)
    (place : Place text) (rest : List Char) : (s.close labels p place rest).Holds done := by
  obtain ⟨brackets, runs, finished, room⟩ := s
  cases brackets with
  | nil => exact h
  | cons b outer =>
    have hsplit : Reading.pending ⟨b :: outer, runs, finished, room⟩ =
        b.runs ++ Reading.pending ⟨outer, runs, finished, room⟩ := List.append_assoc _ _ _
    have hpending := h.pending
    rw [hsplit] at hpending
    simp only [Reading.close]
    split
    · refine ⟨?_, fun c hc => h.finished c ?_⟩
      · rw [pending_push]
        exact hpending
      · rwa [finished_push] at hc
    · -- the runs behind the bracket become a chain of their own
      rw [List.reverse_append] at hpending
      refine Holds.skipTo ⟨?_, fun c hc => ?_⟩ _
      · refine List.Sublist.trans ?_ ((List.sublist_append_left _ _).trans hpending)
        have hruns : (if b.image then outer
            else outer.map fun o => { o with live := o.live && o.image }).flatMap (·.runs) =
              outer.flatMap (·.runs) := by
          split
          · rfl
          · rw [List.flatMap_map]
        rw [Reading.pending, hruns]
        exact List.Sublist.refl _
      · rcases List.mem_cons.1 hc with rfl | hc
        · exact (List.sublist_append_right _ _).trans hpending
        · exact h.finished c hc

theorem Holds.readAngle (h : s.Holds done) (p : Passage text) (place : Place text)
    (rest : List (Place text)) : (s.readAngle p place rest).Holds done := by
  simp only [Reading.readAngle]
  split
  · exact h.skipTo _
  · split
    · exact h.skipTo _
    · exact h

/-- Reading a token adds the run that it is, or none. -/
theorem Holds.read (h : s.Holds done) (labels : List (List Char)) (p : Passage text)
    (t : Token text) (more : List (Token text)) :
    (s.read labels p t more).Holds (done ++ t.run?.toList) := by
  obtain ⟨kind, rest⟩ := t
  have hdone : done <+ done ++ (Token.run? ⟨kind, rest⟩).toList := List.sublist_append_left _ _
  cases kind with
  | run r =>
    show (s.push [r]).Holds (done ++ [r])
    refine ⟨?_, fun c hc => ?_⟩
    · rw [pending_push, List.reverse_append, List.reverse_singleton]
      exact h.pending.append_right [r]
    · rw [finished_push] at hc
      exact (h.finished c hc).trans hdone
  | ticks count escaped =>
    refine Holds.mono ?_ hdone
    simp only [Reading.read]
    generalize (if escaped = true then count - 1 else count) = n
    split
    · exact h
    · split
      · exact h.skipTo _
      · exact h
  | angle place => exact (h.readAngle p place rest).mono hdone
  | opening image => exact ⟨(h.mono hdone).pending, (h.mono hdone).finished⟩
  | closing place => exact (h.close labels p place _).mono hdone

theorem Holds.readAll (h : s.Holds done) (labels : List (List Char)) (p : Passage text)
    (ts : List (Token text)) : (s.readAll labels p ts).Holds (done ++ runsOf ts) := by
  induction ts generalizing s done with
  | nil =>
    rw [Reading.readAll]
    exact h.mono (List.sublist_append_left _ _)
  | cons t ts ih =>
    rw [Reading.readAll, runsOf_cons, ← List.append_assoc]
    split_ifs
    · exact ih (h.mono (List.sublist_append_left _ _))
    · exact ih (h.read labels p t ts)

end Reading

/-- A chain holds runs of its passage in order. -/
theorem sublist_of_mem_chains {labels : List (List Char)} {p : Passage text} {c : List (Run text)}
    (h : c ∈ chains labels p) : c <+ runsOf (tokens p.places) := by
  have hstart : (⟨[], [], [], p.places.length + 1⟩ : Reading text).Holds [] :=
    ⟨List.Sublist.refl _, fun _ hc => absurd hc List.not_mem_nil⟩
  have hall := hstart.readAll labels p (tokens p.places)
  rcases List.mem_cons.1 h with rfl | h
  · exact hall.pending
  · exact hall.finished c h

end Acceptance.Markup
