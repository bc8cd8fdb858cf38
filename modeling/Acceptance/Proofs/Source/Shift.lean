import Mathlib.Data.List.Basic
import Mathlib.Algebra.Order.Monoid.Unbundled.Basic
import Acceptance.Proofs.Source.Concat
import Acceptance.Proofs.Source.Order
import Acceptance.Source.VarBlock

/-!
# Scans that start on a later line

The scans of routines and of blocks of variables look at line numbers only to hand them on. So lines
that are counted on by a number give the same routines and blocks, counted on by that number. A text
that leaves a scan at rest is followed by what the scan finds behind it.

Main results:

* `ScanState.scan_shift`, `varBlocksFrom_shift`: the scans of lines that are counted on.
* `routines_append`, `varBlocks_append`: the routines and the blocks of two sources one after the
  other.
-/

namespace Acceptance.Source

open Text

variable {n : ℕ}

/-! ## Routines -/

namespace Routine

/-- A routine with its lines counted on by `n`. -/
def shift (n : ℕ) (r : Routine) : Routine :=
  { r with
    testLine := r.testLine.map (· + n)
    headerLine := r.headerLine + n
    endLine := r.endLine + n }

@[simp] theorem isTest_shift (r : Routine) : (r.shift n).isTest = r.isTest := by
  cases h : r.testLine <;> simp [shift, isTest, h]

@[simp] theorem anchorLine_shift (r : Routine) : (r.shift n).anchorLine = r.anchorLine + n := by
  cases h : r.testLine <;> simp [shift, anchorLine, h]

@[simp] theorem headerLine_shift (r : Routine) : (r.shift n).headerLine = r.headerLine + n := rfl

@[simp] theorem endLine_shift (r : Routine) : (r.shift n).endLine = r.endLine + n := rfl

theorem hasLine_iff {r : Routine} {line : ℕ} :
    r.hasLine line = true ↔ r.headerLine ≤ line ∧ line ≤ r.endLine := between_iff

theorem hasLine_shift (r : Routine) (line : ℕ) : (r.shift n).hasLine (line + n) = r.hasLine line := by
  simp [hasLine, between, shift]

end Routine

namespace ScanState

/-- A state with the lines in it counted on by `n`. -/
def shift (n : ℕ) (s : ScanState) : ScanState :=
  ⟨s.attributes, s.testLine.map (· + n),
    s.opened.map fun o => ⟨o.routine.shift n, o.depth, o.started⟩⟩

variable (s : ScanState) {l : Line}

theorem readOutside_shift :
    (s.shift n).readOutside (l.shift n) = (s.readOutside l).shift n := by
  have hcollect : (s.shift n).collect (l.shift n) = (s.collect l).shift n := by
    show ScanState.mk _ (if l.marks then some (l.number + n) else s.testLine.map (· + n)) _ = _
    unfold shift collect
    split_ifs <;> rfl
  rw [readOutside_eq, readOutside_eq, hcollect]
  show (if l.isLead then _ else readOutside.readHeader _ (l.number + n) l.rawRest l.rest) = _
  by_cases hl : l.isLead = true
  · rw [if_pos hl, if_pos hl]
  · rw [if_neg hl, if_neg hl, readOutside.readHeader, readOutside.readHeader]
    cases header? l.rawRest l.rest with
    | some header => rfl
    | none => split_ifs <;> rfl

theorem read_shift (hl : 1 ≤ l.number) :
    (s.shift n).read (l.shift n) = ((s.read l).1.shift n, (s.read l).2.map (Routine.shift n)) := by
  have hmax (h : ℕ) : max (l.number + n - 1) (h + n) = max (l.number - 1) h + n := by omega
  have hout := readOutside_shift (n := n) (l := l)
  unfold read
  cases ho : s.opened with
  | none =>
    simp only [shift, ho, Option.map_none]
    exact congrArg (·, none) ((congrArg (ScanState.readOutside · _) (by simp [shift, ho])).trans
      (hout s))
  | some o =>
    have hn := hout { s with opened := none }
    simp only [shift, Option.map_none] at hn
    simp only [shift, ho, Option.map_some, Line.shift] at hn ⊢
    split_ifs
    · rfl
    · rfl
    · simp only [hn, Option.map_some, Routine.shift, hmax]
    · simp [ho]

theorem scan_shift {lines : List Line} (h : ∀ l ∈ lines, 1 ≤ l.number) (last : ℕ) :
    (s.shift n).scan (last + n) (lines.map (Line.shift n)) =
      (s.scan last lines).map (Routine.shift n) := by
  induction lines generalizing s last with
  | nil =>
    have hmax (h : ℕ) : max (last + n) (h + n) = max last h + n := by omega
    show ((s.shift n).finish (last + n)).toList = (s.finish last).toList.map (Routine.shift n)
    cases ho : s.opened with
    | none => simp [finish, shift, ho]
    | some o => simp [finish, shift, ho, Routine.shift, hmax]
  | cons l lines ih =>
    have hscan : (s.shift n).scan (last + n) ((l :: lines).map (Line.shift n)) =
        ((s.shift n).read (l.shift n)).2.toList ++
          ((s.shift n).read (l.shift n)).1.scan (l.number + n) (lines.map (Line.shift n)) := rfl
    have hscan' : s.scan last (l :: lines) =
        (s.read l).2.toList ++ (s.read l).1.scan l.number lines := rfl
    rw [hscan, hscan', read_shift s (h l List.mem_cons_self),
      ih _ fun k hk => h k (List.mem_cons_of_mem _ hk), List.map_append]
    cases (s.read l).2 <;> rfl

/-! ## A scan at rest -/

/-- A test mark waits only together with its attribute. -/
def Attributed (s : ScanState) : Prop := s.testLine ≠ none → s.attributes ≠ []

variable {s}

theorem attributed_readOutside (h : s.Attributed) : (s.readOutside l).Attributed := by
  cases hl : l.isLead with
  | true =>
    rw [readOutside_of_isLead hl]
    intro ht hn
    obtain ⟨ha, hla⟩ := List.append_eq_nil_iff.1 hn
    have hm : l.marks = false := by rw [Line.marks, hla]; rfl
    rw [collect, hm] at ht
    exact h ht ha
  | false => exact fun ht => absurd (testLine_readOutside hl) ht

theorem attributed_read (h : s.Attributed) : (s.read l).1.Attributed := by
  obtain ⟨o, p, -, -, -, hr⟩ | ⟨o, -, -, hr⟩ | ⟨-, hr⟩ | ⟨o, -, -, hr⟩ := s.read_cases l
  · rw [hr]
    exact h
  · rw [hr]
    exact h
  · rw [hr]
    exact attributed_readOutside h
  · rw [hr]
    exact attributed_readOutside h

theorem attributed_run {lines : List Line} (h : s.Attributed) : (s.run lines).1.Attributed := by
  induction lines generalizing s with
  | nil => exact h
  | cons l lines ih =>
    rw [run_cons]
    exact ih (attributed_read h)

/-- With no routine open and no attribute waiting, the scan is where it starts. -/
theorem eq_start {lines : List Line} (ho : (start.run lines).1.opened = none)
    (ha : (start.run lines).1.attributes = []) : (start.run lines).1 = start := by
  have hattr : (start.run lines).1.Attributed := attributed_run fun h => absurd rfl h
  generalize (start.run lines).1 = s at *
  have ht : s.testLine = none := by
    by_contra hne
    exact hattr hne ha
  obtain ⟨attributes, testLine, opened⟩ := s
  simp only at ho ha ht
  rw [ho, ha, ht]
  rfl

end ScanState

theorem lastNumber_zipLines {raws maskeds : List (List Char)} (h : raws.length = maskeds.length)
    (last : ℕ) :
    ScanState.lastNumber last (zipLines (last + 1) raws maskeds) = last + raws.length := by
  induction raws generalizing last maskeds with
  | nil => rfl
  | cons raw raws ih =>
    cases maskeds with
    | nil => cases h
    | cons masked maskeds =>
      rw [zipLines, ScanState.lastNumber_cons, ih (Nat.succ.inj h), List.length_cons]
      show last + 1 + raws.length = _
      omega

/-! ## Blocks of variables -/

/-- A declaration with its line counted on by `n`. -/
def Declaration.shift (n : ℕ) (d : Declaration) : Declaration := { d with line := d.line + n }

/-- A block with its lines counted on by `n`. -/
def VarBlock.shift (n : ℕ) (b : VarBlock) : VarBlock :=
  ⟨b.line + n, b.declarations.map (Declaration.shift n)⟩

theorem declaration?_add (number n : ℕ) (masked : List Char) :
    declaration? (number + n) masked = (declaration? number masked).map (Declaration.shift n) := by
  simp only [declaration?, Option.bind_eq_bind]
  cases afterName? (skipBlanks masked) with
  | none => simp
  | some rest =>
    simp only [Option.bind_some]
    cases char? ':' (skipBlanks (afterNames rest)) with
    | none => simp
    | some behind =>
      simp only [Option.bind_some]
      cases typeName? (skipBlanks behind) <;> rfl

theorem line_of_declaration? {number : ℕ} {masked : List Char} {d : Declaration}
    (h : declaration? number masked = some d) : d.line = number := by
  simp only [declaration?, Option.bind_eq_bind, Option.bind_eq_some_iff] at h
  obtain ⟨r1, -, r2, -, typeName, -, he⟩ := h
  cases he
  rfl

theorem varBlocksFrom_cons (current : Option VarBlock) (line : Line) (rest : List Line) :
    varBlocksFrom current (line :: rest) =
      if isVarLine line.masked then current.toList ++ varBlocksFrom (some ⟨line.number, []⟩) rest
      else
        match current with
        | none => varBlocksFrom none rest
        | some block =>
          if closesVarBlock line.masked then block :: varBlocksFrom none rest
          else varBlocksFrom (some ⟨block.line,
            block.declarations ++ (declaration? line.number line.masked).toList⟩) rest := by
  cases current <;> rfl

/-- The block that is open behind some lines; `current` is open before them. -/
def openVarBlock (current : Option VarBlock) : List Line → Option VarBlock
  | [] => current
  | line :: rest =>
    if isVarLine line.masked then openVarBlock (some ⟨line.number, []⟩) rest
    else
      match current with
      | none => openVarBlock none rest
      | some block =>
        if closesVarBlock line.masked then openVarBlock none rest
        else
          let more := (declaration? line.number line.masked).toList
          openVarBlock (some ⟨block.line, block.declarations ++ more⟩) rest

theorem openVarBlock_cons (current : Option VarBlock) (line : Line) (rest : List Line) :
    openVarBlock current (line :: rest) =
      if isVarLine line.masked then openVarBlock (some ⟨line.number, []⟩) rest
      else
        match current with
        | none => openVarBlock none rest
        | some block =>
          if closesVarBlock line.masked then openVarBlock none rest
          else openVarBlock (some ⟨block.line,
            block.declarations ++ (declaration? line.number line.masked).toList⟩) rest := by
  cases current <;> rfl

/-- Where no block is open behind some lines, the blocks of the lines behind them follow. -/
theorem varBlocksFrom_append {current : Option VarBlock} {first : List Line}
    (h : openVarBlock current first = none) (second : List Line) :
    varBlocksFrom current (first ++ second) =
      varBlocksFrom current first ++ varBlocksFrom none second := by
  induction first generalizing current with
  | nil =>
    obtain rfl : current = none := h
    rfl
  | cons l first ih =>
    rw [openVarBlock_cons] at h
    rw [List.cons_append, varBlocksFrom_cons, varBlocksFrom_cons]
    by_cases hv : isVarLine l.masked = true
    · rw [if_pos hv] at h
      rw [if_pos hv, if_pos hv, ih h, List.append_assoc]
    · rw [if_neg hv] at h
      rw [if_neg hv, if_neg hv]
      cases current with
      | none => exact ih h
      | some block =>
        simp only at h ⊢
        by_cases hc : closesVarBlock l.masked = true
        · rw [if_pos hc] at h
          rw [if_pos hc, if_pos hc, ih h, List.cons_append]
        · rw [if_neg hc] at h
          rw [if_neg hc, if_neg hc, ih h]

theorem varBlocksFrom_shift (current : Option VarBlock) (lines : List Line) :
    varBlocksFrom (current.map (VarBlock.shift n)) (lines.map (Line.shift n)) =
      (varBlocksFrom current lines).map (VarBlock.shift n) := by
  induction lines generalizing current with
  | nil => cases current <;> rfl
  | cons l lines ih =>
    have hempty : some (VarBlock.mk (l.number + n) []) =
        (some (VarBlock.mk l.number [])).map (VarBlock.shift n) := rfl
    have hvar : isVarLine (l.shift n).masked = isVarLine l.masked := rfl
    have hcloses : closesVarBlock (l.shift n).masked = closesVarBlock l.masked := rfl
    rw [List.map_cons, varBlocksFrom_cons, varBlocksFrom_cons, hvar, Line.number_shift, hempty, ih]
    by_cases hv : isVarLine l.masked = true
    · rw [if_pos hv, if_pos hv, List.map_append]
      cases current <;> rfl
    · rw [if_neg hv, if_neg hv]
      cases current with
      | none => exact ih none
      | some block =>
        simp only [Option.map_some, hcloses]
        by_cases hc : closesVarBlock l.masked = true
        · rw [if_pos hc, if_pos hc, List.map_cons]
          exact congrArg _ (ih none)
        · rw [if_neg hc, if_neg hc, ← ih]
          refine congrArg (fun b => varBlocksFrom (some b) _) ?_
          show VarBlock.mk (block.line + n) (block.declarations.map (Declaration.shift n) ++
            (declaration? (l.number + n) l.masked).toList) = _
          rw [declaration?_add, VarBlock.shift, List.map_append]
          cases declaration? l.number l.masked <;> rfl

/-- Declarations stand on lines of their source. -/
theorem exists_line_of_mem_varBlocksFrom {current : Option VarBlock} {lines : List Line}
    {b : VarBlock} (hb : b ∈ varBlocksFrom current lines) {d : Declaration}
    (hd : d ∈ b.declarations) :
    (∃ c ∈ current, d ∈ c.declarations) ∨ ∃ l ∈ lines, d.line = l.number := by
  induction lines generalizing current with
  | nil => exact .inl ⟨b, Option.mem_toList.1 hb, hd⟩
  | cons l lines ih =>
    have later : (∃ k ∈ lines, d.line = k.number) → ∃ k ∈ l :: lines, d.line = k.number := by
      rintro ⟨k, hk, he⟩
      exact ⟨k, List.mem_cons_of_mem l hk, he⟩
    rw [varBlocksFrom_cons] at hb
    by_cases hv : isVarLine l.masked = true
    · rw [if_pos hv] at hb
      rcases List.mem_append.1 hb with hb | hb
      · exact .inl ⟨b, Option.mem_toList.1 hb, hd⟩
      · rcases ih hb with ⟨c, ⟨⟩, hc⟩ | h
        · cases hc
        · exact .inr (later h)
    rw [if_neg hv] at hb
    cases current with
    | none =>
      rcases ih hb with ⟨c, ⟨⟩, -⟩ | h
      exact .inr (later h)
    | some block =>
      simp only at hb
      by_cases hc : closesVarBlock l.masked = true
      · rw [if_pos hc] at hb
        rcases List.mem_cons.1 hb with rfl | hb
        · exact .inl ⟨b, rfl, hd⟩
        · rcases ih hb with ⟨c, ⟨⟩, -⟩ | h
          exact .inr (later h)
      · rw [if_neg hc] at hb
        rcases ih hb with ⟨c, ⟨⟩, hc⟩ | h
        · rcases List.mem_append.1 hc with hc | hc
          · exact .inl ⟨block, rfl, hc⟩
          · refine .inr ⟨l, List.mem_cons_self, ?_⟩
            exact line_of_declaration? (Option.mem_toList.1 hc)
        · exact .inr (later h)

theorem one_le_line_of_mem_varBlocks {s : Source} {b : VarBlock} (hb : b ∈ s.varBlocks)
    {d : Declaration} (hd : d ∈ b.declarations) : 1 ≤ d.line := by
  rcases exists_line_of_mem_varBlocksFrom hb hd with ⟨c, ⟨⟩, -⟩ | ⟨l, hl, he⟩
  rw [he]
  exact one_le_number hl

/-! ## Two sources one after the other -/

/-- Whether nothing that the scans of a source keep reaches over its end: the source ends with a
line and in code, and no routine, no attribute and no block of variables is left. -/
structure EndsAtRest (a : List Char) : Prop where
  line : EndsWithLine a
  code : modeAfter .code a = .code
  routine : (ScanState.start.run (ofChars a).lines).1.opened = none
  attributes : (ScanState.start.run (ofChars a).lines).1.attributes = []
  varBlock : openVarBlock none (ofChars a).lines = none

instance (a : List Char) : Decidable (EndsAtRest a) :=
  decidable_of_iff (EndsWithLine a ∧ modeAfter .code a = .code ∧
      (ScanState.start.run (ofChars a).lines).1.opened = none ∧
      (ScanState.start.run (ofChars a).lines).1.attributes = [] ∧
      openVarBlock none (ofChars a).lines = none)
    ⟨fun h => ⟨h.1, h.2.1, h.2.2.1, h.2.2.2.1, h.2.2.2.2⟩,
      fun h => ⟨h.line, h.code, h.routine, h.attributes, h.varBlock⟩⟩

variable {a : List Char}

/-- The routines of a source that ends at rest have all ended on its lines. -/
theorem EndsAtRest.routines_eq (h : EndsAtRest a) :
    (ofChars a).routines = (ScanState.start.run (ofChars a).lines).2 := by
  rw [routines, ScanState.scan_eq, ScanState.finish, h.routine]
  exact List.append_nil _

theorem EndsAtRest.length_lines (h : EndsAtRest a) : (ofChars a).lines.length = lineFeeds a :=
  length_lines_ofChars h.line h.code

theorem routines_append (h : EndsAtRest a) (b : List Char) :
    (ofChars (a ++ b)).routines =
      (ofChars a).routines ++ (ofChars b).routines.map (Routine.shift (lineFeeds a)) := by
  have hstart := ScanState.eq_start h.routine h.attributes
  have hb := ScanState.scan_shift (n := lineFeeds a) ScanState.start
    (fun l (hl : l ∈ (ofChars b).lines) => one_le_number hl) 0
  have hlast : ScanState.lastNumber 0 (ofChars a).lines = 0 + lineFeeds a := by
    obtain ⟨hr, hk⟩ := length_lines_views h.line h.code
    exact (lastNumber_zipLines (hr.trans hk.symm) 0).trans (congrArg (0 + ·) hr)
  rw [routines, lines_append h.line h.code, ScanState.scan_append, hstart, hlast,
    ← h.routines_eq]
  exact congrArg _ hb

theorem varBlocks_append (h : EndsAtRest a) (b : List Char) :
    (ofChars (a ++ b)).varBlocks =
      (ofChars a).varBlocks ++ (ofChars b).varBlocks.map (VarBlock.shift (lineFeeds a)) := by
  rw [varBlocks, lines_append h.line h.code, varBlocksFrom_append h.varBlock]
  exact congrArg _ (varBlocksFrom_shift none _)

end Acceptance.Source
