import Mathlib.Data.List.Basic
import Acceptance.Check.VariableOrder
import Acceptance.Proofs.Codeunit.Whole

/-!
# The order of variables in generated code

All listed types that a block of generated code declares are one type, so no declaration of a block
is out of order. A block ends with the line behind its declarations, or before that where the
library has the name of a keyword. So every part of the code can be looked at on its own.

Main results:

* `blockOrder_eq_nil`: declarations of one listed type are in order.
* `Settled.append`: parts one after the other.
* `Codeunit.variableOrder_code`: no declaration is out of order.
-/

namespace Acceptance

open Text Source CodeLine

namespace Check

/-! ## Blocks of one type -/

/-- Whether a declaration has the listed type of the given rank, or none. -/
def HasRank (rank : ℕ) (d : Declaration) : Prop :=
  typeRank? d.typeName = none ∨ typeRank? d.typeName = some rank

instance (rank : ℕ) (d : Declaration) : Decidable (HasRank rank d) := by
  unfold HasRank
  infer_instance

theorem blockOrder_eq_nil {rank : ℕ} {declarations : List Declaration}
    (h : ∀ d ∈ declarations, HasRank rank d) : blockOrder none declarations = [] := by
  have key : ∀ ds : List Declaration, (∀ d ∈ ds, HasRank rank d) → ∀ highest : Option ℕ,
      highest = none ∨ highest = some rank → blockOrder highest ds = [] := by
    intro ds
    induction ds with
    | nil => intro _ highest _; exact blockOrder_nil highest
    | cons d ds ih =>
      intro hds highest hh
      have ih := ih fun e he => hds e (List.mem_cons_of_mem _ he)
      rw [blockOrder.eq_def]
      rcases hds d List.mem_cons_self with hd | hd
      · simp only [hd]
        exact ih highest hh
      · simp only [hd]
        rcases hh with rfl | rfl
        · exact ih _ (.inr rfl)
        · simp only [Nat.lt_irrefl, if_false]
          exact ih _ (.inr rfl)
  exact key declarations h none (.inl rfl)

/-- The issues about the order of declarations in some blocks. -/
def orderIssues (blocks : List VarBlock) : List Issue :=
  blocks.flatMap fun block => blockOrder none block.declarations

/-- `Settled current raws`: with the block `current` open, the lines `raws` give no issue and leave
no block open. -/
def Settled (current : Option VarBlock) (raws : List (List Char)) : Prop :=
  ∀ (number : ℕ) (rest : List Line),
    orderIssues (varBlocksFrom current (Source.numbered number raws ++ rest)) =
      orderIssues (varBlocksFrom none rest)

theorem Settled.nil : Settled none [] := fun _ _ => rfl

theorem Settled.append {current : Option VarBlock} {first second : List (List Char)}
    (hf : Settled current first) (hs : Settled none second) : Settled current (first ++ second) := by
  intro number rest
  rw [numbered_append, List.append_assoc, hf, hs]

/-- Lines that open no block. -/
theorem Settled.idle {raws : List (List Char)} (h : ∀ raw ∈ raws, isVarLine (mask raw) = false) :
    Settled none raws := by
  intro number rest
  induction raws generalizing number with
  | nil => rfl
  | cons raw raws ih =>
    have hr : isVarLine (Line.masked ⟨number, raw, mask raw⟩) = false := h raw List.mem_cons_self
    rw [numbered_cons, List.cons_append, varBlocksFrom, if_neg (by rw [hr]; decide)]
    exact ih (fun r hm => h r (List.mem_cons_of_mem _ hm)) _

/-- What a line inside a block of one type may declare. -/
def IsMember (rank : ℕ) (raw : List Char) : Prop :=
  isVarLine (mask raw) = false ∧ ∀ number, ∀ d ∈ declaration? number (mask raw), HasRank rank d

/-- The number of a line does not change what it declares. -/
theorem isMember_of_zero {rank : ℕ} {raw : List Char} (hv : isVarLine (mask raw) = false)
    (hd : ∀ d ∈ declaration? 0 (mask raw), HasRank rank d) : IsMember rank raw := by
  refine ⟨hv, fun number d hm => ?_⟩
  simp only [declaration?, Option.bind_eq_bind, Option.mem_def, Option.bind_eq_some_iff] at hd hm
  obtain ⟨r1, h1, r2, h2, typeName, h3, he⟩ := hm
  cases he
  exact hd ⟨0, _, typeName⟩ ⟨r1, h1, r2, h2, typeName, h3, rfl⟩

/-- A line that closes every block. -/
def IsCloser (raw : List Char) : Prop :=
  isVarLine (mask raw) = false ∧ closesVarBlock (mask raw) = true

/-- A block goes on over its declarations to the line that closes it. -/
theorem Settled.opened {rank : ℕ} {raws : List (List Char)} (h : ∀ raw ∈ raws, IsMember rank raw)
    {closer : List Char} (hc : IsCloser closer) {block : VarBlock}
    (hb : ∀ d ∈ block.declarations, HasRank rank d) : Settled (some block) (raws ++ [closer]) := by
  induction raws generalizing block with
  | nil =>
    intro number rest
    have h1 : isVarLine (Line.masked ⟨number, closer, mask closer⟩) = false := hc.1
    have h2 : closesVarBlock (Line.masked ⟨number, closer, mask closer⟩) = true := hc.2
    rw [List.nil_append, numbered_cons, numbered_nil, List.cons_append, List.nil_append,
      varBlocksFrom, if_neg (by rw [h1]; decide)]
    simp only [h2, if_true]
    rw [orderIssues, List.flatMap_cons, blockOrder_eq_nil hb]
    rfl
  | cons raw raws ih =>
    have hr := h raw List.mem_cons_self
    have hraws : ∀ r ∈ raws, IsMember rank r := fun r hm => h r (List.mem_cons_of_mem _ hm)
    intro number rest
    have h1 : isVarLine (Line.masked ⟨number, raw, mask raw⟩) = false := hr.1
    rw [List.cons_append, numbered_cons, List.cons_append, varBlocksFrom,
      if_neg (by rw [h1]; decide)]
    by_cases h2 : closesVarBlock (mask raw) = true
    · -- the block ends early, and what is left opens none
      have idle : Settled none (raws ++ [closer]) := by
        refine .idle fun r hm => ?_
        rcases List.mem_append.1 hm with hm | hm
        · exact (hraws r hm).1
        · exact List.mem_singleton.1 hm ▸ hc.1
      simp only [h2, if_true]
      rw [orderIssues, List.flatMap_cons, blockOrder_eq_nil hb]
      exact idle _ rest
    · simp only [h2]
      refine ih hraws (fun d hd => ?_) _ rest
      rcases List.mem_append.1 hd with hd | hd
      · exact hb d hd
      · exact hr.2 number d (Option.mem_toList.1 hd)

theorem Settled.block {rank : ℕ} {opener : List Char} (ho : isVarLine (mask opener) = true)
    {raws : List (List Char)} (h : ∀ raw ∈ raws, IsMember rank raw) {closer : List Char}
    (hc : IsCloser closer) : Settled none (opener :: (raws ++ [closer])) := by
  intro number rest
  have h1 : isVarLine (Line.masked ⟨number, opener, mask opener⟩) = true := ho
  rw [numbered_cons, List.cons_append, varBlocksFrom, if_pos h1]
  exact Settled.opened h hc (by simp) _ rest

end Check

open Check

/-! ## Lines that open no block -/

theorem isVarLine_spaces (n : ℕ) : isVarLine (List.replicate n ' ') = false := by
  rw [isVarLine, skipBlanks_spaces]
  rfl

theorem isVarLine_libraryLine {name : List Char} (hn : IsPlain name) (hne : name ≠ []) :
    isVarLine (libraryLine name) = false := by
  unfold isVarLine
  rw [skipBlanks_libraryLine hn hne]
  cases hk : keyword? "var".toList (name ++ ':' :: (" Codeunit ".toList ++ (name ++ [';']))) with
  | none => rfl
  | some rest =>
    obtain ⟨start, hs, he⟩ := keyword?_eq_some_iff.1 hk
    have hm : ';' ∈ start ++ rest := by
      rw [← he]
      simp
    have hrest : ';' ∈ rest := by
      refine (List.mem_append.1 hm).resolve_left fun hstart => ?_
      have : ';' ∈ "var".toList := by
        rw [← hs]
        exact List.mem_map.2 ⟨';', hstart, rfl⟩
      exact absurd this (by decide)
    rw [Option.map_some, Option.getD_some, allBlank, List.all_eq_false]
    exact ⟨';', hrest, by decide⟩

/-- The library is declared as a codeunit. -/
theorem declaration?_libraryLine {name : List Char} (h : Naming.isIdentifier name = true)
    {number : ℕ} {d : Declaration} (hd : declaration? number (libraryLine name) = some d) :
    d.typeName = "Codeunit".toList := by
  obtain ⟨hp, hne⟩ := isPlain_of_isIdentifier h
  have hskip := skipBlanks_libraryLine hp hne
  have hname : afterName? (name ++ ':' :: (" Codeunit ".toList ++ (name ++ [';']))) =
      some (':' :: (" Codeunit ".toList ++ (name ++ [';']))) := by
    obtain ⟨c, rest, rfl⟩ := List.exists_cons_of_ne_nil hne
    have hq : c ≠ '"' := ne_of_plain (hp c List.mem_cons_self) rfl
    have hletter : (isFoldedLetter c || c == '_') = true := by
      have key : ∀ n < 128, ((Char.ofNat n).isAlpha || Char.ofNat n == '_') = true →
          (isFoldedLetter (Char.ofNat n) || Char.ofNat n == '_') = true := by
        decide
      rw [Naming.isIdentifier, Bool.and_eq_true] at h
      exact ascii_induction (p := fun c => (c.isAlpha || c == '_') = true →
        (isFoldedLetter c || c == '_') = true) key
        (toNat_lt_of_isPlainNameChar (hp c List.mem_cons_self)) h.1
    rw [List.cons_append, afterName?, if_pos hletter,
      List.dropWhile_append_of_pos fun e he =>
        (plain_spec (hp e (List.mem_cons_of_mem _ he))).2.2.1]
    · rfl
    · exact fun he => hq he
  have hnames : afterNames (':' :: (" Codeunit ".toList ++ (name ++ [';']))) =
      ':' :: (" Codeunit ".toList ++ (name ++ [';'])) := by
    rw [afterNames]
    split
    · next hr => cases hr
    · rfl
  unfold declaration? at hd
  simp only [hskip, hname, hnames, Option.bind_eq_bind, Option.bind_some] at hd
  cases hd
  rfl

/-! ## Generated code -/

theorem IsRemark.isVarLine_raw {l : CodeLine} {content : String} (h : l.IsRemark content) :
    isVarLine (mask l.raw) = false := by
  obtain ⟨n, hn⟩ := h.exists_mask_raw
  rw [hn, isVarLine_spaces]

theorem isCloser_begins : IsCloser begins.raw := by
  unfold IsCloser
  decide

namespace TestProcedure

variable {t : TestProcedure}

/-- The attributes and the header open no block. -/
theorem settled_lead (h : t.IsSound) : Settled none (raws (t.lead ++ [t.header])) := by
  have fixed : ∀ l ∈ [(⟨1, "[Test]"⟩ : CodeLine), ⟨1, handlerAttribute⟩],
      isVarLine (mask l.raw) = false := by
    decide
  refine .idle fun raw hraw => ?_
  obtain ⟨l, hl, rfl⟩ := List.mem_map.1 hraw
  rcases List.mem_append.1 hl with hl | hl
  · exact fixed l (mem_lead hl)
  · obtain ⟨rest, hn, hp⟩ := h.name
    rw [List.mem_singleton.1 hl, header, raw_procedureLine, hn, mask_bare (isBare_procedureLine hp)]
    rfl

/-- The declarations are records and pages without a rank, or the fallback alone. -/
theorem exists_rank (h : t.IsSound) :
    ∃ rank, ∀ raw ∈ raws (t.declarations.map (⟨2, ·⟩)), IsMember rank raw := by
  have rules : ∀ d ∈ declarationRules.flatMap (·.declarations),
      isVarLine (mask (raw ⟨2, d⟩)) = false ∧
        ∀ e ∈ declaration? 0 (mask (raw ⟨2, d⟩)), HasRank 0 e :=
    List.forall_mem_map.1 <| CodeLine.forall_raw
      (fun row => isVarLine (mask row) = false ∧ ∀ e ∈ declaration? 0 (mask row), HasRank 0 e)
      ⟨_, by repeat' constructor, by decide +kernel⟩
  have fallback : isVarLine (mask (raw ⟨2, fallbackDeclaration⟩)) = false ∧
      ∀ e ∈ declaration? 0 (mask (raw ⟨2, fallbackDeclaration⟩)), HasRank 2 e := by
    decide +kernel
  rcases h.fallback with hf | hf
  · refine ⟨2, fun raw hraw => ?_⟩
    rw [hf] at hraw
    obtain rfl := List.mem_singleton.1 hraw
    exact isMember_of_zero fallback.1 fallback.2
  · refine ⟨0, fun raw hraw => ?_⟩
    obtain ⟨l, hl, rfl⟩ := List.mem_map.1 hraw
    obtain ⟨d, hd, rfl⟩ := List.mem_map.1 hl
    have hrule : d ∈ declarationRules.flatMap (·.declarations) :=
      (List.mem_cons.1 (h.declarations d hd)).resolve_left fun he => hf (he ▸ hd)
    exact isMember_of_zero (rules d hrule).1 (rules d hrule).2

/-- The body opens no block. -/
theorem settled_inner (h : t.IsSound) : Settled none (raws (t.inner ++ [ends, .blank])) := by
  have fixed : ∀ l ∈ [(⟨2, "Initialize();"⟩ : CodeLine), .blank, ends],
      isVarLine (mask l.raw) = false := by
    decide
  refine .idle fun raw hraw => ?_
  obtain ⟨l, hl, rfl⟩ := List.mem_map.1 hraw
  rcases List.mem_append.1 hl with hl | hl
  · rcases mem_inner h hl with ⟨content, hc⟩ | hc
    · exact IsRemark.isVarLine_raw hc
    · exact fixed l (List.mem_append_left [ends] hc)
  · simp only [List.mem_cons, List.not_mem_nil, or_false] at hl
    rcases hl with rfl | rfl
    · exact fixed ends (by decide)
    · exact fixed CodeLine.blank (by decide)

theorem settled_lines (h : t.IsSound) : Settled none (raws t.lines) := by
  obtain ⟨rank, hrank⟩ := exists_rank h
  have opener : isVarLine (mask (raw ⟨1, "var"⟩)) = true := by decide
  have := ((settled_lead h).append (Settled.block opener hrank isCloser_begins)).append
    (settled_inner h)
  rw [lines_eq]
  simpa using this

theorem settled_tests {tests : List TestProcedure} (h : ∀ t ∈ tests, t.IsSound) :
    Settled none (raws (tests.flatMap lines)) := by
  induction tests with
  | nil => exact .nil
  | cons t tests ih =>
    rw [List.flatMap_cons, raws_append]
    exact (settled_lines (h t List.mem_cons_self)).append
      (ih fun u hu => h u (List.mem_cons_of_mem _ hu))

end TestProcedure

namespace Codeunit

variable {c : Codeunit}

theorem settled_header (h : c.IsSound) : Settled none (raws c.header) := by
  have fixed : ∀ l ∈ [(⟨0, "\x7b"⟩ : CodeLine), ⟨1, "Subtype = Test;"⟩, .blank,
      ⟨1, "trigger OnRun()"⟩, begins, ends], isVarLine (mask l.raw) = false := by
    decide
  refine .idle fun raw hraw => ?_
  obtain ⟨l, hl, rfl⟩ := List.mem_map.1 hraw
  simp only [header, List.mem_cons, List.not_mem_nil, or_false] at hl
  rcases hl with rfl | rfl | rfl | rfl | rfl | rfl | rfl | rfl | rfl
  · rw [raw_objectLine h.name h.name_ne_nil, mask_bare (isBare_objectLine h.name _)]
    rfl
  · exact fixed ⟨0, "\x7b"⟩ (by decide)
  · exact fixed ⟨1, "Subtype = Test;"⟩ (by decide)
  · exact fixed .blank (by decide)
  · exact fixed ⟨1, "trigger OnRun()"⟩ (by decide)
  · exact fixed begins (by decide)
  · exact IsRemark.isVarLine_raw (isRemark_feature h)
  · exact fixed ends (by decide)
  · exact fixed .blank (by decide)

/-- The variables of the codeunit, to the header of the procedure behind them. -/
theorem settled_globals (h : c.IsSound) : Settled none (raws (c.globals ++ setup)) := by
  have fixed : ∀ l ∈ [(⟨2, "LibraryAssert: Codeunit \"Library Assert\";"⟩ : CodeLine),
      ⟨2, "LibraryVariableStorage: Codeunit \"Library - Variable Storage\";"⟩,
      ⟨2, "LibraryLowerPermissions: Codeunit \"Library - Lower Permissions\";"⟩,
      ⟨2, "IsInitialized: Boolean;"⟩, .blank], isVarLine (mask l.raw) = false ∧
        ∀ d ∈ declaration? 0 (mask l.raw), HasRank 2 d :=
    CodeLine.forall_raw
      (fun row => isVarLine (mask row) = false ∧ ∀ d ∈ declaration? 0 (mask row), HasRank 2 d)
      ⟨_, by repeat' constructor, by decide +kernel⟩
  have library : IsMember 2 (libraryLine c.library.toList) := by
    obtain ⟨hp, hne⟩ := isPlain_of_isIdentifier h.library
    have hm := mask_bare (isBare_libraryLine hp)
    refine isMember_of_zero ?_ fun d hd => ?_
    · rw [hm]
      exact isVarLine_libraryLine hp hne
    · rw [hm, Option.mem_def] at hd
      rw [HasRank, declaration?_libraryLine h.library hd]
      exact .inr (by decide)
  have members : ∀ raw ∈ raws c.globals.tail, IsMember 2 raw := by
    intro raw hraw
    obtain ⟨l, hl, rfl⟩ := List.mem_map.1 hraw
    rcases List.mem_cons.1 hl with rfl | hl
    · rw [raw_libraryLine]
      exact library
    · exact isMember_of_zero (fixed l hl).1 (fixed l hl).2
  have opener : isVarLine (mask (raw ⟨1, "var"⟩)) = true := by decide
  have closer : IsCloser (raw ⟨1, "local procedure Initialize()"⟩) := by
    unfold IsCloser
    decide
  have behind : Settled none (raws setup.tail) := .idle (by decide)
  have := (Settled.block opener members closer).append behind
  simpa [globals, setup] using this

theorem variableOrder_code (h : c.IsSound) : variableOrder (Analysis.ofString c.code) = [] := by
  have behind : Settled none (raws ((if c.hasHandlers then handlers else []) ++ [⟨0, "\x7d"⟩])) := by
    have fixed : ∀ l ∈ handlers ++ [⟨0, "\x7d"⟩], isVarLine (mask l.raw) = false :=
      CodeLine.forall_raw (fun row => isVarLine (mask row) = false)
        ⟨_, by repeat' constructor, by decide +kernel⟩
    refine .idle fun raw hraw => ?_
    obtain ⟨l, hl, rfl⟩ := List.mem_map.1 hraw
    refine fixed l ?_
    cases hh : c.hasHandlers <;> rw [hh] at hl
    · exact List.mem_append_right _ hl
    · exact hl
  have whole : Settled none (raws c.lines) := by
    have := (((settled_header h).append (settled_globals h)).append
      (TestProcedure.settled_tests h.tests)).append behind
    rw [lines]
    simpa using this
  have := whole 1 []
  rw [List.append_nil] at this
  rw [variableOrder, ofString_code, Analysis.varBlocks_ofChars, varBlocks,
    lines_join (isPlainLine_lines h)]
  exact this

end Codeunit

end Acceptance
