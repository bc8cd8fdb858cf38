import Mathlib.Data.List.Forall2
import Acceptance.Check.VariableOrder
import Acceptance.Proofs.Check.Rule
import Acceptance.Proofs.Source.Shift

/-!
# Declarations out of order

The check of a block keeps the latest listed type that it has seen, so it finds a declaration out of
order exactly if one of all those before it has a later type, also where that one is itself out of
order. Each such declaration has one issue, on its own line, which names the latest type before it.
The lines of declarations ascend over all blocks, so no two issues share a line.

Main results:

* `blockOrder_eq`: the running maximum and the latest type of all earlier declarations.
* `blockOrder_eq_nil_iff`: a block without issues has its listed types in order.
* `forall₂_variableOrder`: the declarations out of order in a source and their issues.
-/

namespace Acceptance

open Text Source

namespace Check

/-! ## Specification -/

/-- Whether a type is the one at a place of the list, up to the case of ASCII letters. -/
def IsListedAt (typeName : List Char) (rank : ℕ) : Prop :=
  ∃ known, typeOrder[rank]? = some known ∧ sameIgnoringCase known.toList typeName = true

/-- Whether a type is listed. -/
def IsListed (typeName : List Char) : Prop := ∃ rank, IsListedAt typeName rank

/-- Whether the latest listed type among declarations has the given rank. -/
structure IsLatest (ds : List Declaration) (rank : ℕ) : Prop where
  declared : ∃ d ∈ ds, IsListedAt d.typeName rank
  latest : ∀ d ∈ ds, ∀ r, IsListedAt d.typeName r → r ≤ rank

/-- Whether a declaration behind others has a listed type, and one of them a later one. -/
def IsMisplaced (earlier : List Declaration) (d : Declaration) : Prop :=
  ∃ rank, IsListedAt d.typeName rank ∧
    ∃ e ∈ earlier, ∃ later, IsListedAt e.typeName later ∧ rank < later

/-- The declarations of a block, each with those before it. -/
def placed (ds : List Declaration) : List (List Declaration × Declaration) :=
  ds.zipIdx.map fun p => (ds.take p.2, p.1)

/-! ## Ranks -/

theorem typeRank?_eq_some_iff {typeName : List Char} {rank : ℕ} :
    typeRank? typeName = some rank ↔ IsListedAt typeName rank := by
  constructor
  · intro h
    obtain ⟨hlt, hsame, -⟩ := List.findIdx?_eq_some_iff_getElem.1 h
    exact ⟨typeOrder[rank], List.getElem?_eq_getElem hlt, hsame⟩
  · rintro ⟨known, hknown, hsame⟩
    obtain ⟨hlt, rfl⟩ := List.getElem?_eq_some_iff.1 hknown
    refine List.findIdx?_eq_some_iff_getElem.2 ⟨hlt, hsame, fun j hj hother => ?_⟩
    -- no two listed types differ in case only
    have hnodup : (typeOrder.map fun known => known.toList.map Char.toLower).Nodup := by decide
    rw [sameIgnoringCase, beq_iff_eq] at hsame hother
    have hne := List.pairwise_iff_getElem.1 hnodup j rank
      (by rw [List.length_map]; omega) (by rwa [List.length_map]) hj
    rw [List.getElem_map, List.getElem_map] at hne
    exact hne (hother.trans hsame.symm)

theorem IsListedAt.unique {typeName : List Char} {r q : ℕ} (hr : IsListedAt typeName r)
    (hq : IsListedAt typeName q) : r = q :=
  Option.some.inj ((typeRank?_eq_some_iff.2 hr).symm.trans (typeRank?_eq_some_iff.2 hq))

theorem IsLatest.unique {ds : List Declaration} {r q : ℕ} (hr : IsLatest ds r)
    (hq : IsLatest ds q) : r = q := by
  obtain ⟨d, hd, hdr⟩ := hr.declared
  obtain ⟨e, he, heq⟩ := hq.declared
  exact Nat.le_antisymm (hq.latest d hd r hdr) (hr.latest e he q heq)

instance (typeName : List Char) : Decidable (IsListed typeName) :=
  decidable_of_iff ((typeRank? typeName).isSome = true) <| by
    simp only [Option.isSome_iff_exists, typeRank?_eq_some_iff, IsListed]

instance (earlier : List Declaration) (d : Declaration) : Decidable (IsMisplaced earlier d) :=
  decidable_of_iff (∃ rank ∈ typeRank? d.typeName,
      ∃ e ∈ earlier, ∃ later ∈ typeRank? e.typeName, rank < later) <| by
    simp only [Option.mem_def, typeRank?_eq_some_iff, IsMisplaced]

/-! ## The latest type so far -/

/-- The latest listed type so far, with one more declaration. -/
def raise (highest : Option ℕ) (d : Declaration) : Option ℕ :=
  match typeRank? d.typeName with
  | none => highest
  | some rank => some (max rank (highest.getD 0))

/-- The issue about a declaration behind ones of which `highest` is the latest listed type. -/
def orderIssue? (highest : Option ℕ) (d : Declaration) : Option Issue :=
  (typeRank? d.typeName).bind fun rank =>
    highest.bind fun h => if rank < h then some (orderIssue h rank d) else none

/-- The rank of the latest listed type among declarations. -/
def latest? (ds : List Declaration) : Option ℕ := ds.foldl raise none

theorem latest?_concat (ds : List Declaration) (d : Declaration) :
    latest? (ds ++ [d]) = raise (latest? ds) d := by
  rw [latest?, List.foldl_append]
  rfl

/-- The latest listed type after one more declaration. -/
theorem isLatest_raise {ds : List Declaration} {d : Declaration}
    (h : (∀ r, latest? ds = some r → IsLatest ds r) ∧
      (latest? ds = none → ∀ e ∈ ds, ∀ r, ¬ IsListedAt e.typeName r))
    {rank : ℕ} (hd : IsListedAt d.typeName rank) :
    IsLatest (ds ++ [d]) (max rank ((latest? ds).getD 0)) := by
  obtain ⟨hsome, hnone⟩ := h
  cases hlatest : latest? ds with
  | none =>
    rw [Option.getD_none, Nat.max_zero]
    refine ⟨⟨d, List.mem_append_right ds (List.mem_singleton_self d), hd⟩, fun e he r hr => ?_⟩
    rcases List.mem_append.1 he with he | he
    · exact absurd hr (hnone hlatest e he r)
    · rw [List.mem_singleton.1 he] at hr
      exact Nat.le_of_eq (hr.unique hd)
  | some q =>
    have hq := hsome q hlatest
    rw [Option.getD_some]
    refine ⟨?_, fun e he r hr => ?_⟩
    · rcases Nat.le_total q rank with hle | hle
      · rw [Nat.max_eq_left hle]
        exact ⟨d, List.mem_append_right ds (List.mem_singleton_self d), hd⟩
      · rw [Nat.max_eq_right hle]
        obtain ⟨e, he, hlisted⟩ := hq.declared
        exact ⟨e, List.mem_append_left [d] he, hlisted⟩
    · rcases List.mem_append.1 he with he | he
      · exact (hq.latest e he r hr).trans (Nat.le_max_right rank q)
      · rw [List.mem_singleton.1 he] at hr
        exact (Nat.le_of_eq (hr.unique hd)).trans (Nat.le_max_left rank q)

/-- What is kept is the latest listed type, if there is one. -/
theorem isLatest_latest? (ds : List Declaration) :
    (∀ r, latest? ds = some r → IsLatest ds r) ∧
      (latest? ds = none → ∀ d ∈ ds, ∀ r, ¬ IsListedAt d.typeName r) := by
  induction ds using List.reverseRecOn with
  | nil => exact ⟨nofun, nofun⟩
  | append_singleton ds d ih =>
    rw [latest?_concat, raise]
    cases hrank : typeRank? d.typeName with
    | some rank =>
      refine ⟨fun r hr => ?_, nofun⟩
      cases hr
      exact isLatest_raise ih (typeRank?_eq_some_iff.1 hrank)
    | none =>
      have hd (r : ℕ) : ¬ IsListedAt d.typeName r := by
        rw [← typeRank?_eq_some_iff, hrank]
        exact nofun
      obtain ⟨hsome, hnone⟩ := ih
      refine ⟨fun r hr => ?_, fun h e he r hr => ?_⟩
      · obtain ⟨⟨e, he, hlisted⟩, hlatest⟩ := hsome r hr
        refine ⟨⟨e, List.mem_append_left [d] he, hlisted⟩, fun e he q hq => ?_⟩
        rcases List.mem_append.1 he with he | he
        · exact hlatest e he q hq
        · exact absurd (List.mem_singleton.1 he ▸ hq) (hd q)
      · rcases List.mem_append.1 he with he | he
        · exact hnone h e he r hr
        · exact hd r (List.mem_singleton.1 he ▸ hr)

theorem latest?_eq_some_iff {ds : List Declaration} {rank : ℕ} :
    latest? ds = some rank ↔ IsLatest ds rank := by
  obtain ⟨hsome, hnone⟩ := isLatest_latest? ds
  refine ⟨hsome rank, fun h => ?_⟩
  cases hlatest : latest? ds with
  | none =>
    obtain ⟨d, hd, hlisted⟩ := h.declared
    exact absurd hlisted (hnone hlatest d hd rank)
  | some r => rw [(hsome r hlatest).unique h]

/-- A declaration is out of order if its type comes before the latest one so far. -/
theorem isMisplaced_iff {earlier : List Declaration} {d : Declaration} :
    IsMisplaced earlier d ↔
      ∃ rank latest, IsListedAt d.typeName rank ∧ IsLatest earlier latest ∧ rank < latest := by
  constructor
  · rintro ⟨rank, hrank, e, he, later, hlater, hlt⟩
    cases hlatest : latest? earlier with
    | none => exact absurd hlater ((isLatest_latest? earlier).2 hlatest e he later)
    | some latest =>
      have h := latest?_eq_some_iff.1 hlatest
      exact ⟨rank, latest, hrank, h, Nat.lt_of_lt_of_le hlt (h.latest e he later hlater)⟩
  · rintro ⟨rank, latest, hrank, ⟨⟨e, he, hlater⟩, -⟩, hlt⟩
    exact ⟨rank, hrank, e, he, latest, hlater, hlt⟩

/-! ## A block -/

/-- One declaration: whether it has an issue, and the latest type behind it. -/
theorem blockOrder_cons (highest : Option ℕ) (d : Declaration) (ds : List Declaration) :
    blockOrder highest (d :: ds) =
      (orderIssue? highest d).toList ++ blockOrder (raise highest d) ds := by
  rw [blockOrder.eq_def, orderIssue?, raise]
  cases hrank : typeRank? d.typeName with
  | none =>
    simp only [hrank]
    rfl
  | some rank =>
    simp only [hrank, Option.bind_some]
    cases highest with
    | none => exact congrArg (fun h => blockOrder (some h) ds) (Nat.max_zero rank).symm
    | some h =>
      simp only [Option.bind_some, Option.getD_some]
      split_ifs with hlt
      · rw [Nat.max_eq_right hlt.le]
        rfl
      · rw [Nat.max_eq_left (Nat.le_of_not_lt hlt)]
        rfl

/-- The issues of a block are those of its declarations, each behind all the earlier ones. -/
theorem blockOrder_eq (ds : List Declaration) :
    blockOrder none ds = (placed ds).filterMap fun p => orderIssue? (latest? p.1) p.2 := by
  have key : ∀ ds earlier : List Declaration, blockOrder (latest? earlier) ds =
      ((ds.zipIdx earlier.length).map fun p => ((earlier ++ ds).take p.2, p.1)).filterMap
        fun p => orderIssue? (latest? p.1) p.2 := by
    intro ds
    induction ds with
    | nil => intro earlier; exact blockOrder_nil _
    | cons d ds ih =>
      intro earlier
      have hrest : earlier ++ d :: ds = (earlier ++ [d]) ++ ds := by simp
      have hlength : earlier.length + 1 = (earlier ++ [d]).length := by simp
      rw [blockOrder_cons, ← latest?_concat, ih, List.zipIdx_cons, List.map_cons,
        List.filterMap_cons, List.take_left, hlength, hrest]
      cases orderIssue? (latest? earlier) d <;> rfl
  exact key ds []

/-- An issue names the latest type before its declaration. -/
theorem orderIssue?_eq_some_iff {earlier : List Declaration} {d : Declaration} {i : Issue} :
    orderIssue? (latest? earlier) d = some i ↔ ∃ rank latest, IsListedAt d.typeName rank ∧
      IsLatest earlier latest ∧ rank < latest ∧ i = orderIssue latest rank d := by
  simp only [orderIssue?, Option.bind_eq_some_iff, Option.ite_none_right_eq_some, Option.some.injEq,
    typeRank?_eq_some_iff, latest?_eq_some_iff]
  constructor
  · rintro ⟨rank, hrank, latest, hlatest, hlt, rfl⟩
    exact ⟨rank, latest, hrank, hlatest, hlt, rfl⟩
  · rintro ⟨rank, latest, hrank, hlatest, hlt, rfl⟩
    exact ⟨rank, hrank, latest, hlatest, hlt, rfl⟩

theorem isSome_orderIssue?_iff {earlier : List Declaration} {d : Declaration} :
    (orderIssue? (latest? earlier) d).isSome = true ↔ IsMisplaced earlier d := by
  rw [Option.isSome_iff_exists, isMisplaced_iff]
  simp only [orderIssue?_eq_some_iff]
  constructor
  · rintro ⟨_, rank, latest, hrank, hlatest, hlt, -⟩
    exact ⟨rank, latest, hrank, hlatest, hlt⟩
  · rintro ⟨rank, latest, hrank, hlatest, hlt⟩
    exact ⟨_, rank, latest, hrank, hlatest, hlt, rfl⟩

theorem mem_placed_iff {ds : List Declaration} {p : List Declaration × Declaration} :
    p ∈ placed ds ↔ ∃ rest, ds = p.1 ++ p.2 :: rest := by
  obtain ⟨earlier, d⟩ := p
  simp only [placed, List.mem_map, Prod.mk.injEq, Prod.exists]
  constructor
  · rintro ⟨e, i, hi, rfl, rfl⟩
    have hget : ds[i]? = some e := List.mem_zipIdx_iff_getElem?.1 hi
    obtain ⟨hlt, rfl⟩ := List.getElem?_eq_some_iff.1 hget
    exact ⟨ds.drop (i + 1), by rw [← List.drop_eq_getElem_cons hlt, List.take_append_drop]⟩
  · rintro ⟨rest, rfl⟩
    refine ⟨d, earlier.length, List.mem_zipIdx_iff_getElem?.2 ?_, List.take_left, rfl⟩
    rw [List.getElem?_append_right (Nat.le_refl _), Nat.sub_self]
    rfl

/-- A block without issues has its listed types in order. -/
theorem blockOrder_eq_nil_iff {ds : List Declaration} :
    blockOrder none ds = [] ↔ ds.Pairwise fun e d =>
      ∀ earlier rank, IsListedAt e.typeName earlier → IsListedAt d.typeName rank →
        earlier ≤ rank := by
  have hplaces : blockOrder none ds = [] ↔ ∀ p ∈ placed ds, ¬ IsMisplaced p.1 p.2 := by
    rw [blockOrder_eq, List.filterMap_eq_nil_iff]
    refine forall₂_congr fun p _ => ?_
    rw [← isSome_orderIssue?_iff, Option.not_isSome_iff_eq_none]
  rw [hplaces]
  constructor
  · refine fun h => List.pairwise_iff_getElem.2 fun i j hi hj hij earlier rank he hd => ?_
    have hmem : (ds.take j, ds[j]) ∈ placed ds := mem_placed_iff.2
      ⟨ds.drop (j + 1), by rw [← List.drop_eq_getElem_cons hj, List.take_append_drop]⟩
    by_contra hlt
    exact h _ hmem ⟨rank, hd, ds[i], List.mem_take_iff_getElem.2 ⟨i, by omega, rfl⟩, earlier, he,
      Nat.lt_of_not_le hlt⟩
  · rintro h ⟨earlier, d⟩ hp ⟨rank, hd, e, he, later, hlater, hlt⟩
    obtain ⟨rest, rfl⟩ := mem_placed_iff.1 hp
    have := (List.pairwise_append.1 h).2.2 e he d List.mem_cons_self later rank hlater hd
    omega

/-- Declarations of types that are not listed do not matter. -/
theorem blockOrder_filter_isListed (highest : Option ℕ) (ds : List Declaration) :
    blockOrder highest (ds.filter fun d => IsListed d.typeName) = blockOrder highest ds := by
  induction ds generalizing highest with
  | nil => rfl
  | cons d ds ih =>
    by_cases hd : IsListed d.typeName
    · rw [List.filter_cons_of_pos (by simpa using hd), blockOrder_cons, blockOrder_cons, ih]
    · have hrank : typeRank? d.typeName = none := by
        rw [Option.eq_none_iff_forall_ne_some]
        exact fun rank h => hd ⟨rank, typeRank?_eq_some_iff.1 h⟩
      rw [List.filter_cons_of_neg (by simpa using hd), ih, blockOrder_cons, orderIssue?, raise, hrank]
      rfl

/-- The declarations out of order in a block, and their issues. -/
theorem forall₂_blockOrder {ds : List Declaration} (h : ∀ d ∈ ds, 1 ≤ d.line) :
    List.Forall₂ (fun i p => ∃ rank latest, IsListedAt p.2.typeName rank ∧ IsLatest p.1 latest ∧
        i = orderIssue latest rank p.2 ∧ i.line = p.2.line)
      (blockOrder none ds) ((placed ds).filter fun p => IsMisplaced p.1 p.2) := by
  rw [blockOrder_eq]
  refine forall₂_filterMap (fun p _ => ?_) fun p hp i hi => ?_
  · rw [Bool.eq_iff_iff, decide_eq_true_iff, isSome_orderIssue?_iff]
  · obtain ⟨rank, latest, hrank, hlatest, -, rfl⟩ := orderIssue?_eq_some_iff.1 hi
    obtain ⟨rest, hds⟩ := mem_placed_iff.1 hp
    exact ⟨rank, latest, hrank, hlatest, rfl, Nat.max_eq_left (h p.2 (by simp [hds]))⟩

end Check

/-! ## Lines of declarations -/

/-- What lines declare as parts of blocks is declared on them, in their order. -/
theorem sublist_declarations (current : Option VarBlock) (lines : List Line) :
    ((varBlocksFrom current lines).flatMap VarBlock.declarations).Sublist
      (current.toList.flatMap VarBlock.declarations ++
        lines.filterMap fun l => declaration? l.number l.masked) := by
  induction lines generalizing current with
  | nil => exact (List.append_nil _).symm ▸ List.Sublist.refl _
  | cons l lines ih =>
    have hline : (lines.filterMap fun l => declaration? l.number l.masked).Sublist
        ((l :: lines).filterMap fun l => declaration? l.number l.masked) :=
      (List.sublist_cons_self l lines).filterMap _
    rw [varBlocksFrom_cons]
    by_cases hvar : isVarLine l.masked = true
    · rw [if_pos hvar, List.flatMap_append]
      exact ((ih (some ⟨l.number, []⟩)).trans hline).append_left _
    rw [if_neg hvar]
    cases current with
    | none => exact (ih none).trans hline
    | some block =>
      simp only
      by_cases hcloses : closesVarBlock l.masked = true
      · rw [if_pos hcloses, List.flatMap_cons, Option.toList_some, List.flatMap_singleton]
        exact ((ih none).trans hline).append_left _
      · rw [if_neg hcloses]
        refine (ih _).trans ?_
        cases hd : declaration? l.number l.masked <;> simp [hd]

/-- No two declarations stand on one line. -/
theorem pairwise_declarations (code : List Char) :
    ((ofChars code).varBlocks.flatMap VarBlock.declarations).Pairwise
      fun d e => d.line < e.line := by
  refine List.Pairwise.sublist (sublist_declarations none _) ?_
  refine List.pairwise_filterMap.2 ((ascends_lines (ofChars code)).imp fun hlt d hd e he => ?_)
  rwa [line_of_declaration? hd, line_of_declaration? he]

/-! ## A source -/

/-- The declarations of a source stand on different lines, and its issues about their order are those
of its blocks one after the other. In a block, the declarations with a listed type that stand behind
one of a later type have one issue each, in their order, on their own line and with the latest type
before them. So a block without issues has its listed types in order, and types that are not listed
make no difference. -/
theorem forall₂_variableOrder (code : String) :
    let a := Analysis.ofString code
    let issues := (validate code).issues.filter fun i => i.rule == Rule.variableOrder
    (a.varBlocks.flatMap VarBlock.declarations).Pairwise (fun d e => d.line < e.line) ∧
      issues = a.varBlocks.flatMap (fun block => Check.blockOrder none block.declarations) ∧
      ∀ block ∈ a.varBlocks,
        List.Forall₂ (fun i p => ∃ rank latest, Check.IsListedAt p.2.typeName rank ∧
            Check.IsLatest p.1 latest ∧ i = Check.orderIssue latest rank p.2 ∧ i.line = p.2.line)
          (Check.blockOrder none block.declarations)
          ((Check.placed block.declarations).filter fun p => Check.IsMisplaced p.1 p.2) ∧
        (Check.blockOrder none block.declarations = [] ↔ block.declarations.Pairwise fun e d =>
          ∀ earlier rank, Check.IsListedAt e.typeName earlier → Check.IsListedAt d.typeName rank →
            earlier ≤ rank) ∧
        Check.blockOrder none (block.declarations.filter fun d => Check.IsListed d.typeName) =
          Check.blockOrder none block.declarations := by
  intro a issues
  refine ⟨pairwise_declarations code.toList, ?_, fun block hblock => ⟨?_, ?_, ?_⟩⟩
  · exact filter_issues_eq (by decide +kernel : Rule.lists _ .warning .variableOrder = true)
      (by decide +kernel) a
  · exact Check.forall₂_blockOrder fun d hd => one_le_line_of_mem_varBlocks hblock hd
  · exact Check.blockOrder_eq_nil_iff
  · exact Check.blockOrder_filter_isListed none _

/-- Two blocks. In the first one two declarations are out of order, the second of them also behind
the first one of these. -/
def twoBlocks : String :=
  "var\n    Mgt: Codeunit M;\n    Flag: Boolean;\n    Rep: REPORT R;\n    Item, Card: Record I;\n" ++
  "procedure Post()\nvar\n    Cust: Record C;"

theorem forall₂_variableOrder_twoBlocks :
    ((validate twoBlocks).issues.filter fun i => i.rule == Rule.variableOrder).map
        (fun i => (i.line, i.message)) =
      [(4, "Variable Rep of type \"Report\" should be declared before Codeunit variables"),
        (5, "Variable Item, Card of type \"Record\" should be declared before Codeunit variables")] ∧
      ∃ block ∈ (Analysis.ofString twoBlocks).varBlocks,
        ((Check.placed block.declarations).filter fun p => Check.IsMisplaced p.1 p.2).map
          (·.2.line) = [4, 5] ∧
        List.Forall₂ (fun i p => ∃ rank latest, Check.IsListedAt p.2.typeName rank ∧
            Check.IsLatest p.1 latest ∧ i = Check.orderIssue latest rank p.2 ∧ i.line = p.2.line)
          (Check.blockOrder none block.declarations)
          ((Check.placed block.declarations).filter fun p => Check.IsMisplaced p.1 p.2) := by
  refine ⟨by decide +kernel, ⟨1, [⟨2, "Mgt".toList, "Codeunit".toList⟩,
    ⟨3, "Flag".toList, "Boolean".toList⟩, ⟨4, "Rep".toList, "REPORT".toList⟩,
    ⟨5, "Item, Card".toList, "Record".toList⟩]⟩, ?_, by decide +kernel, ?_⟩
  · decide +kernel
  · exact ((forall₂_variableOrder twoBlocks).2.2 _ (by decide +kernel)).1

end Acceptance
