import Mathlib.Data.List.Basic
import Acceptance.Proofs.Source.Seam
import Acceptance.Source.Routine

/-!
# The scan of routines in parts

What the scan reports on some lines depends on the lines before only through the state that they
leave. A part of a source that leaves the scan at rest can be looked at on its own: its routines are
those of the source that lie there, and each has the lines that the part gives it.

Main results:

* `ScanState.scan_append`: the scan goes on where the first part leaves it.
* `RoutineText.run_lines`: a routine that is laid out line by line is reported with its extent.
* `Shows.append`: the routines of two parts one after the other.
-/

namespace Acceptance.Source

open Text

/-! ## Running the scan on some lines -/

namespace ScanState

/-- The state after some lines, and the routines that end by them. -/
def run (s : ScanState) : List Line → ScanState × List Routine
  | [] => (s, [])
  | line :: rest =>
    let (next, ended) := s.read line
    let (final, more) := run next rest
    (final, ended.toList ++ more)

@[simp] theorem run_nil (s : ScanState) : s.run [] = (s, []) := rfl

theorem run_cons (s : ScanState) (line : Line) (rest : List Line) :
    s.run (line :: rest) =
      (((s.read line).1.run rest).1, (s.read line).2.toList ++ ((s.read line).1.run rest).2) := rfl

theorem run_append (s : ScanState) (first second : List Line) :
    s.run (first ++ second) =
      (((s.run first).1.run second).1, (s.run first).2 ++ ((s.run first).1.run second).2) := by
  induction first generalizing s with
  | nil => rfl
  | cons line first ih => rw [List.cons_append, run_cons, ih, run_cons, List.append_assoc]

/-- The number of the last line, or the given number if there is no line. -/
def lastNumber (last : ℕ) (lines : List Line) : ℕ :=
  (lines.getLast?.map Line.number).getD last

theorem lastNumber_cons (last : ℕ) (line : Line) (rest : List Line) :
    lastNumber last (line :: rest) = lastNumber line.number rest := by
  rw [lastNumber, lastNumber, List.getLast?_cons]
  cases rest.getLast? <;> rfl

theorem scan_append (s : ScanState) (last : ℕ) (first second : List Line) :
    s.scan last (first ++ second) =
      (s.run first).2 ++ (s.run first).1.scan (lastNumber last first) second := by
  induction first generalizing s last with
  | nil => rfl
  | cons line first ih =>
    rw [List.cons_append, run_cons, List.append_assoc, lastNumber_cons, ← ih]
    rfl

theorem scan_eq (s : ScanState) (last : ℕ) (lines : List Line) :
    s.scan last lines =
      (s.run lines).2 ++ ((s.run lines).1.finish (lastNumber last lines)).toList := by
  have h := s.scan_append last lines []
  rwa [List.append_nil, scan] at h

end ScanState

/-! ## One line -/

/-- Whether a masked line starts with a bracket. -/
def opensBracket (masked : List Char) : Bool := (skipBlanks masked).head? == some '['

theorem header?_eq_none {masked : List Char} (h : isHeader masked = false) (raw : List Char) :
    header? raw masked = none := by
  have hs : isProcedureHeader masked = false ∧ triggerName? masked = none := by
    simpa [isHeader] using h
  rw [header?, if_neg (by simp [hs.1]), hs.2]
  rfl

theorem opensBracket_of_afterAttribute? {masked rest : List Char}
    (h : afterAttribute? masked = some rest) : opensBracket masked = true := by
  unfold afterAttribute? at h
  split at h
  · next hs =>
    rw [opensBracket, hs]
    rfl
  · cases h

/-- A line with one list of attributes and nothing behind it. -/
theorem splitAttributes_single {masked : List Char} (h : afterAttribute? masked = some []) :
    splitAttributes masked = (masked, []) := by
  have h0 : afterAttributes [] = [] := by
    rw [afterAttributes]
    split
    · next hr => cases hr
    · rfl
  have h1 : afterAttributes masked = [] := by
    rw [afterAttributes]
    split
    · next hr =>
      rw [h] at hr
      rw [← Option.some.inj hr, h0]
    · next hr =>
      rw [h] at hr
      cases hr
  rw [splitAttributes, h]
  simp only [h1, List.length_nil, Nat.sub_zero, List.take_length]

namespace ScanState

/-- A line that is neither an attribute nor a header leaves nothing waiting. -/
theorem readOutside_idle (line : Line) (hb : opensBracket line.masked = false)
    (hh : isHeader line.masked = false) : start.readOutside line = start := by
  rw [readOutside, if_neg (by simpa [opensBracket] using hb), readOutside.readHeader,
    header?_eq_none hh]
  by_cases h : allBlank line.masked = true
  · rw [if_pos h]
  · rw [if_neg h]
    rfl

/-- A line of attributes adds them to those that wait. -/
theorem readOutside_attributes {s : ScanState} (line : Line) {lists rest : List Char}
    (hb : opensBracket line.masked = true) (hs : splitAttributes line.masked = (lists, rest))
    (hr : allBlank rest = true) :
    s.readOutside line =
      { s with
        attributes := s.attributes ++ attributeNames lists
        testLine :=
          if (attributeNames lists).any marksTest then some line.number else s.testLine } := by
  rw [readOutside, if_pos (by simpa [opensBracket] using hb), hs]
  exact if_pos hr

/-- A header takes the attributes that wait. -/
theorem readOutside_header {s : ScanState} (line : Line) {name : List Char} {kind : RoutineKind}
    (hb : opensBracket line.masked = false)
    (hh : header? line.raw line.masked = some (name, kind)) :
    s.readOutside line =
      ⟨[], none,
        some ⟨⟨name, kind, s.attributes, s.testLine, line.number, line.number⟩, 0, false⟩⟩ := by
  rw [readOutside, if_neg (by simpa [opensBracket] using hb), readOutside.readHeader, hh]

theorem read_of_closed {s : ScanState} (h : s.opened = none) (line : Line) :
    s.read line = (s.readOutside line, none) := by
  rw [read, h]

/-- A line that changes no level leaves a body that has not started as it is, if it is no header. -/
theorem read_of_unstarted {s : ScanState} {o : OpenRoutine} (h : s.opened = some o)
    (ho : o.started = false) (line : Line) (hd : blockDelta line.masked = 0)
    (hh : isHeader line.masked = false) : s.read line = (s, none) := by
  rw [read, h]
  simp [hd, ho, hh]

/-- A line that leaves a level open starts the body or stays in it. -/
theorem read_of_pos {s : ScanState} {o : OpenRoutine} (h : s.opened = some o) (line : Line)
    (hs : blockDelta line.masked ≠ 0 ∨ o.started = true)
    (hd : 0 < o.depth + blockDelta line.masked) :
    s.read line =
      ({ s with opened := some ⟨o.routine, o.depth + blockDelta line.masked, true⟩ }, none) := by
  rw [read, h]
  simp only
  rw [if_pos hs, if_neg (by omega)]

/-- The line that closes the last level ends the routine. -/
theorem read_of_le {s : ScanState} {o : OpenRoutine} (h : s.opened = some o) (line : Line)
    (hs : blockDelta line.masked ≠ 0 ∨ o.started = true)
    (hd : o.depth + blockDelta line.masked ≤ 0) :
    s.read line =
      ({ s with opened := none }, some { o.routine with endLine := line.number }) := by
  rw [read, h]
  simp only
  rw [if_pos hs, if_pos hd]

/-- One list of attributes on a line of its own. -/
theorem read_attributes {s : ScanState} (hs : s.opened = none) (line : Line)
    (h : afterAttribute? line.masked = some []) :
    s.read line =
      ({ s with
          attributes := s.attributes ++ attributeNames line.masked
          testLine :=
            if (attributeNames line.masked).any marksTest then some line.number else s.testLine },
        none) := by
  rw [read_of_closed hs, readOutside_attributes line (opensBracket_of_afterAttribute? h)
    (splitAttributes_single h) rfl]

end ScanState

/-! ## A routine line by line -/

@[simp] theorem numbered_nil (number : ℕ) : numbered number [] = [] := rfl

theorem numbered_cons (number : ℕ) (raw : List Char) (raws : List (List Char)) :
    numbered number (raw :: raws) = ⟨number, raw, mask raw⟩ :: numbered (number + 1) raws := rfl

theorem numbered_append (number : ℕ) (first second : List (List Char)) :
    numbered number (first ++ second) =
      numbered number first ++ numbered (number + first.length) second := by
  induction first generalizing number with
  | nil => rfl
  | cons line first ih =>
    rw [List.cons_append, numbered_cons, ih, numbered_cons, List.cons_append, List.length_cons,
      Nat.add_right_comm, Nat.add_assoc]

/-- The lines of a routine from its header to its last keyword. -/
structure RoutineText where
  header : List Char
  /-- What stands between the header and the body. -/
  declarations : List (List Char)
  opening : List Char
  body : List (List Char)
  closing : List Char

namespace RoutineText

/-- All lines of the routine. -/
def lines (t : RoutineText) : List (List Char) :=
  t.header :: (t.declarations ++ t.opening :: (t.body ++ [t.closing]))

/-- What the lines of a routine with the given name and kind do to the level. -/
structure Declares (t : RoutineText) (name : List Char) (kind : RoutineKind) : Prop where
  no_bracket : opensBracket (mask t.header) = false
  header : header? t.header (mask t.header) = some (name, kind)
  declarations : ∀ line ∈ t.declarations, blockDelta (mask line) = 0 ∧ isHeader (mask line) = false
  opening : blockDelta (mask t.opening) = 1
  body : ∀ line ∈ t.body, blockDelta (mask line) = 0
  closing : blockDelta (mask t.closing) = -1

variable {t : RoutineText} {name : List Char} {kind : RoutineKind}

theorem run_declarations {s : ScanState} {o : OpenRoutine} (hs : s.opened = some o)
    (ho : o.started = false) {raws : List (List Char)}
    (h : ∀ line ∈ raws, blockDelta (mask line) = 0 ∧ isHeader (mask line) = false) (number : ℕ) :
    s.run (numbered number raws) = (s, []) := by
  induction raws generalizing number with
  | nil => rfl
  | cons raw raws ih =>
    obtain ⟨hd, hh⟩ := h raw List.mem_cons_self
    have hn : s.read ⟨number, raw, mask raw⟩ = (s, none) :=
      ScanState.read_of_unstarted hs ho _ hd hh
    rw [numbered_cons, ScanState.run_cons, hn, ih fun line hl => h line (List.mem_cons_of_mem _ hl)]
    rfl

theorem run_body {s : ScanState} {o : OpenRoutine} (hs : s.opened = some o)
    (ho : o.started = true) (hd : 0 < o.depth) {raws : List (List Char)}
    (h : ∀ line ∈ raws, blockDelta (mask line) = 0) (number : ℕ) :
    s.run (numbered number raws) = (s, []) := by
  induction raws generalizing number with
  | nil => rfl
  | cons raw raws ih =>
    have hr := h raw List.mem_cons_self
    -- the state after the line is the state before it
    have hn : s.read ⟨number, raw, mask raw⟩ = (s, none) := by
      rw [ScanState.read_of_pos hs _ (.inr ho) (by rw [hr, Int.add_zero]; exact hd), hr, Int.add_zero]
      obtain ⟨attributes, testLine, opened⟩ := s
      obtain ⟨routine, depth, started⟩ := o
      simp only at hs ho
      rw [hs, ho]
    rw [numbered_cons, ScanState.run_cons, hn, ih fun line hl => h line (List.mem_cons_of_mem _ hl)]
    rfl

theorem run_lines (h : t.Declares name kind) (attributes : List (List Char)) (testLine : Option ℕ)
    (number : ℕ) :
    (⟨attributes, testLine, none⟩ : ScanState).run (numbered number t.lines) =
      (.start, [⟨name, kind, attributes, testLine, number, number + t.lines.length - 1⟩]) := by
  let r : Routine := ⟨name, kind, attributes, testLine, number, number⟩
  have header : (⟨attributes, testLine, none⟩ : ScanState).read ⟨number, t.header, mask t.header⟩ =
      (⟨[], none, some ⟨r, 0, false⟩⟩, none) := by
    rw [ScanState.read_of_closed rfl]
    exact congrArg (·, none) (ScanState.readOutside_header _ h.no_bracket h.header)
  have opening (n : ℕ) : (⟨[], none, some ⟨r, 0, false⟩⟩ : ScanState).read
      ⟨n, t.opening, mask t.opening⟩ = (⟨[], none, some ⟨r, 1, true⟩⟩, none) := by
    have hd : blockDelta (Line.masked ⟨n, t.opening, mask t.opening⟩) = 1 := h.opening
    rw [ScanState.read_of_pos rfl _ (.inl (by rw [hd]; decide)) (by rw [hd]; exact Int.one_pos), hd]
    rfl
  have closing (n : ℕ) : (⟨[], none, some ⟨r, 1, true⟩⟩ : ScanState).read
      ⟨n, t.closing, mask t.closing⟩ = (.start, some { r with endLine := n }) := by
    have hd : blockDelta (Line.masked ⟨n, t.closing, mask t.closing⟩) = -1 := h.closing
    rw [ScanState.read_of_le rfl _ (.inr rfl) (by rw [hd]; exact Int.le_refl 0)]
    rfl
  have declarations := run_declarations (s := ⟨[], none, some ⟨r, 0, false⟩⟩) rfl rfl h.declarations
  have body := run_body (s := ⟨[], none, some ⟨r, 1, true⟩⟩) rfl rfl Int.one_pos h.body
  rw [lines, numbered_cons, ScanState.run_cons, header, numbered_append, ScanState.run_append,
    declarations, numbered_cons, ScanState.run_cons, opening, numbered_append,
    ScanState.run_append, body, numbered_cons, ScanState.run_cons, closing]
  have hlen : number + 1 + t.declarations.length + 1 + t.body.length =
      number + (t.header :: (t.declarations ++ t.opening :: (t.body ++ [t.closing]))).length - 1 := by
    simp
    omega
  rw [hlen]
  rfl

end RoutineText

/-! ## Parts of a source -/

/-- The lines that belong to a routine. -/
def Routine.linesAmong (r : Routine) (lines : List Line) : List Line :=
  lines.filter fun line => r.hasLine line.number

/-- `Shows number raws shown`: the lines `raws`, of which the first has the given number, leave the
scan at rest, and it reports the routines `shown`, each with its own lines. -/
structure Shows (number : ℕ) (raws : List (List Char)) (shown : List (Routine × List Line)) :
    Prop where
  run : ScanState.start.run (numbered number raws) = (.start, shown.map Prod.fst)
  lines : ∀ p ∈ shown, p.2 = p.1.linesAmong (numbered number raws)
  within : ∀ p ∈ shown, number ≤ p.1.headerLine ∧ p.1.endLine < number + raws.length

theorem number_of_mem_numbered {number : ℕ} {raws : List (List Char)} {line : Line}
    (h : line ∈ numbered number raws) :
    number ≤ line.number ∧ line.number < number + raws.length := by
  induction raws generalizing number with
  | nil => cases h
  | cons raw raws ih =>
    rcases List.mem_cons.1 h with rfl | h
    · simp
    · obtain ⟨h1, h2⟩ := ih h
      rw [List.length_cons]
      omega

/-- A routine has no lines among those before its header or behind its end. -/
theorem Routine.linesAmong_eq_nil {r : Routine} {number : ℕ} {raws : List (List Char)}
    (h : r.endLine < number ∨ number + raws.length ≤ r.headerLine) :
    r.linesAmong (numbered number raws) = [] := by
  refine List.filter_eq_nil_iff.2 fun line hl => ?_
  obtain ⟨h1, h2⟩ := number_of_mem_numbered hl
  simp only [hasLine, between, Bool.and_eq_true, decide_eq_true_eq, not_and]
  intro hf
  omega

/-- A routine that covers some lines has them all. -/
theorem Routine.linesAmong_eq_self {r : Routine} {number : ℕ} {raws : List (List Char)}
    (hf : r.headerLine ≤ number) (hl : number + raws.length ≤ r.endLine + 1) :
    r.linesAmong (numbered number raws) = numbered number raws := by
  refine List.filter_eq_self.2 fun line hm => ?_
  obtain ⟨h1, h2⟩ := number_of_mem_numbered hm
  simp only [hasLine, between, Bool.and_eq_true, decide_eq_true_eq]
  omega

theorem Shows.nil (number : ℕ) : Shows number [] [] := ⟨rfl, by simp, by simp⟩

theorem Shows.append {number : ℕ} {first second : List (List Char)}
    {shown more : List (Routine × List Line)} (hf : Shows number first shown)
    (hs : Shows (number + first.length) second more) :
    Shows number (first ++ second) (shown ++ more) where
  run := by
    rw [numbered_append, ScanState.run_append, hf.run, hs.run, List.map_append]
  lines := by
    intro p hp
    rw [numbered_append, Routine.linesAmong, List.filter_append]
    rcases List.mem_append.1 hp with hp | hp
    · have hw := (hf.within p hp).2
      have he : p.1.linesAmong (numbered (number + first.length) second) = [] :=
        Routine.linesAmong_eq_nil (.inl hw)
      rw [Routine.linesAmong] at he
      rw [he, List.append_nil]
      exact hf.lines p hp
    · have hw := (hs.within p hp).1
      have he : p.1.linesAmong (numbered number first) = [] :=
        Routine.linesAmong_eq_nil (.inr hw)
      rw [Routine.linesAmong] at he
      rw [he, List.nil_append]
      exact hs.lines p hp
  within := by
    intro p hp
    rw [List.length_append]
    rcases List.mem_append.1 hp with hp | hp
    · have := hf.within p hp
      omega
    · have := hs.within p hp
      omega

/-- Lines without attributes and headers show nothing. -/
theorem Shows.idle {raws : List (List Char)}
    (h : ∀ raw ∈ raws, opensBracket (mask raw) = false ∧ isHeader (mask raw) = false)
    (number : ℕ) : Shows number raws [] := by
  refine ⟨?_, by simp, by simp⟩
  induction raws generalizing number with
  | nil => rfl
  | cons raw raws ih =>
    obtain ⟨hb, hh⟩ := h raw List.mem_cons_self
    have hn : ScanState.start.readOutside ⟨number, raw, mask raw⟩ = .start :=
      ScanState.readOutside_idle _ hb hh
    rw [numbered_cons, ScanState.run_cons, ScanState.read_of_closed rfl, hn,
      ih fun r hr => h r (List.mem_cons_of_mem _ hr)]
    rfl

/-- The routine that some lines from the given number on declare, with these lines. -/
def RoutineText.shown (t : RoutineText) (name : List Char) (kind : RoutineKind)
    (attributes : List (List Char)) (testLine : Option ℕ) (number : ℕ) : Routine × List Line :=
  (⟨name, kind, attributes, testLine, number, number + t.lines.length - 1⟩, numbered number t.lines)

/-- Lines that leave attributes waiting, and the routine that takes them. -/
theorem Shows.routine {number : ℕ} {lead : List (List Char)} {attributes : List (List Char)}
    {testLine : Option ℕ}
    (hl : ScanState.start.run (numbered number lead) = (⟨attributes, testLine, none⟩, []))
    {t : RoutineText} {name : List Char} {kind : RoutineKind} (ht : t.Declares name kind) :
    Shows number (lead ++ t.lines)
      [t.shown name kind attributes testLine (number + lead.length)] where
  run := by
    rw [numbered_append, ScanState.run_append, hl, RoutineText.run_lines ht]
    rfl
  lines := by
    intro p hp
    obtain rfl := List.mem_singleton.1 hp
    rw [numbered_append, Routine.linesAmong, List.filter_append]
    symm
    refine (congrArg₂ _ (Routine.linesAmong_eq_nil (.inr le_rfl))
      (Routine.linesAmong_eq_self le_rfl ?_)).trans (List.nil_append _)
    show number + lead.length + t.lines.length ≤ number + lead.length + t.lines.length - 1 + 1
    omega
  within := by
    intro p hp
    obtain rfl := List.mem_singleton.1 hp
    have hpos : 0 < t.lines.length := by simp [RoutineText.lines]
    rw [List.length_append]
    constructor
    · exact Nat.le_add_right _ _
    · show number + lead.length + t.lines.length - 1 < number + (lead.length + t.lines.length)
      omega

/-! ## A whole source -/

theorem Shows.routines_eq {raws : List (List Char)} {shown : List (Routine × List Line)}
    (h : Shows 1 raws shown) (hp : ∀ raw ∈ raws, IsPlainLine raw) :
    (ofChars (joinLines raws)).routines = shown.map Prod.fst := by
  rw [routines, lines_join hp, ScanState.scan_eq, h.run]
  exact List.append_nil _

/-- The comments inside a routine are those of its lines. -/
theorem commentsBetween_join {raws : List (List Char)} (hp : ∀ raw ∈ raws, IsPlainLine raw)
    (r : Routine) :
    (ofChars (joinLines raws)).commentsBetween r.headerLine r.endLine =
      (r.linesAmong (numbered 1 raws)).flatMap Line.comments := by
  rw [commentsBetween, comments_join hp, Routine.linesAmong]
  induction numbered 1 raws with
  | nil => rfl
  | cons line lines ih =>
    rw [List.flatMap_cons, List.filter_append, ih, List.filter_cons]
    -- all comments of a line have its number
    have hc : ∀ c ∈ line.comments, c.line = line.number := by
      intro c hc
      obtain ⟨text, -, rfl⟩ := List.mem_map.1 hc
      rfl
    by_cases hl : r.hasLine line.number = true
    · rw [if_pos hl, List.flatMap_cons, List.filter_eq_self.2]
      intro c hm
      rw [hc c hm]
      exact hl
    · rw [if_neg hl, List.filter_eq_nil_iff.2, List.nil_append]
      intro c hm
      rw [hc c hm]
      exact hl

end Acceptance.Source
