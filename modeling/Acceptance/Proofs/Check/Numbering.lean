import Mathlib.Data.List.Forall2
import Acceptance.Check.ScenarioCount
import Acceptance.Proofs.Check.Rule
import Acceptance.Proofs.Source.Lines
import Acceptance.Proofs.Text.Plain
import Acceptance.Proofs.Text.Reader

/-!
# Gaps in the numbers of scenarios

The numbers of the scenario comments of a source are sorted and compared with those from 1 on. In a
sorted list the first entry that differs is either the least number above the one expected, which is
missing, or the number before it once more. Sorting keeps the order of equal numbers, so an entry of
the second kind belongs to the second comment with its number.

Main results:

* `scenarioTag?_eq_some_iff`: the tag of a scenario comment.
* `filter_mergeSort`: sorting keeps the order of entries that are not compared.
* `firstGap?_eq_some_iff`: the first gap of a list.
* `isGap_of_append`: what is found where the numbers of a sorted list do not go on.
* `exists_numbers_scenarioCount`: the issues about number and numbering of scenarios.
-/

namespace Acceptance

open Text Source

/-! ## Specification -/

/-- Whether a text opens with the numbered tag of a scenario, and the digits of the number, which may
be of any script. -/
def OpensWithTag (content digits : List Char) : Prop :=
  ∃ blanks rest, content = "[SCENARIO".toList ++ (blanks ++ (digits ++ ']' :: rest)) ∧
    blanks ≠ [] ∧ (∀ c ∈ blanks, isBlank c = true) ∧
    digits ≠ [] ∧ ∀ c ∈ digits, isDigit c = true

namespace Source.Comment

/-- Whether a comment opens with the numbered tag of a scenario. -/
def IsScenario (c : Comment) : Prop := ∃ digits, OpensWithTag c.content digits

/-- Whether a comment has the tag of a scenario with a number in ASCII digits that 64 bits hold. -/
def HasNumber (c : Comment) (n : ℕ) : Prop :=
  ∃ digits, OpensWithTag c.content digits ∧ (∀ d ∈ digits, isAsciiDigit d = true) ∧
    Nat.ofDigitChars 10 digits 0 = n ∧ n < UInt64.size

end Source.Comment

/-- Whether the numbers do not go on at `expected`, where `found` is instead: those from 1 on that are
less than `expected` all occur, and either `expected` does not and `found` is the next one that does,
or `found` is the number before `expected` and occurs again, or it is 0 and 1 is expected. -/
structure IsGap (numbers : List ℕ) (expected found : ℕ) : Prop where
  earlier : ∀ n, 1 ≤ n → n < expected → n ∈ numbers
  occurs : found ∈ numbers
  found : (expected ∉ numbers ∧ expected < found ∧ ∀ n ∈ numbers, expected < n → found ≤ n) ∨
    (found + 1 = expected ∧ 2 ≤ numbers.count found) ∨ (found = 0 ∧ expected = 1)

/-- Whether a comment is the one that is cited where the numbers do not go on. -/
structure IsCited (comments : List Comment) (expected found : ℕ) (c : Comment) : Prop where
  mem : c ∈ comments
  number : c.HasNumber found
  /-- A repeated number is found at the second comment that has it. -/
  second : found + 1 = expected → 1 < expected →
    ∃ first before between after, comments = before ++ first :: (between ++ c :: after) ∧
      first.HasNumber found ∧ ∀ d ∈ before ++ between, ¬ d.HasNumber found

/-! ## Tags -/

theorem scenarioTag?_eq_some_iff {content digits : List Char} :
    Check.scenarioTag? content = some digits ↔ OpensWithTag content digits := by
  simp only [Check.scenarioTag?, Option.bind_eq_bind, Option.bind_eq_some_iff, after?_eq_some_iff,
    blanks?_eq_some_iff_append, char?_eq_some_iff, Prod.exists, run?_eq_some_iff]
  constructor
  · rintro ⟨_, rfl, _, ⟨blanks, rfl, hne, hblank, -⟩, digits, _, ⟨rfl, hnumber, hdigits, -⟩, rest,
      rfl, ⟨⟩⟩
    exact ⟨blanks, rest, rfl, hne, hblank, hnumber, hdigits⟩
  · rintro ⟨blanks, rest, rfl, hne, hblank, hnumber, hdigits⟩
    refine ⟨_, rfl, _, ⟨blanks, rfl, hne, hblank, fun c hc => ?_⟩, digits, ']' :: rest,
      ⟨rfl, hnumber, hdigits, ?_⟩, rest, rfl, rfl⟩
    · obtain ⟨d, more, rfl⟩ := List.exists_cons_of_ne_nil hnumber
      rw [Option.mem_def, List.cons_append, List.head?_cons, Option.some.injEq] at hc
      exact hc ▸ not_isBlank_of_isDigit (hdigits d List.mem_cons_self)
    · rintro c ⟨⟩
      decide

theorem word64?_eq_some_iff {s : List Char} {n : ℕ} :
    word64? s = some n ↔ s ≠ [] ∧ (∀ c ∈ s, isAsciiDigit c = true) ∧
      Nat.ofDigitChars 10 s 0 = n ∧ n < UInt64.size := by
  have hand : word64? s = some n ↔ decimal? s = some n ∧ n < UInt64.size := by
    rw [word64?]
    cases decimal? s with
    | none => simp
    | some m =>
      simp only [Option.ite_none_right_eq_some, Option.some.injEq]
      constructor
      · rintro ⟨hlt, rfl⟩
        exact ⟨rfl, hlt⟩
      · rintro ⟨rfl, hlt⟩
        exact ⟨hlt, rfl⟩
  rw [hand, decimal?_eq_some_iff, and_assoc, and_assoc]

namespace Source.Comment

/-- The number of a scenario comment, if it has one. -/
def number? (c : Comment) : Option ℕ := (Check.scenarioTag? c.content).bind word64?

theorem number?_eq_some_iff {c : Comment} {n : ℕ} : c.number? = some n ↔ c.HasNumber n := by
  rw [number?, Option.bind_eq_some_iff]
  refine exists_congr fun digits => ?_
  rw [scenarioTag?_eq_some_iff, word64?_eq_some_iff]
  constructor
  · rintro ⟨htag, -, hnumber⟩
    exact ⟨htag, hnumber⟩
  · rintro ⟨htag, hnumber⟩
    obtain ⟨-, -, -, -, -, hne, -⟩ := id htag
    exact ⟨htag, hne, hnumber⟩

instance (c : Comment) : Decidable c.IsScenario :=
  decidable_of_iff ((Check.scenarioTag? c.content).isSome = true) <| by
    simp only [Option.isSome_iff_exists, scenarioTag?_eq_some_iff, IsScenario]

instance (c : Comment) (n : ℕ) : Decidable (c.HasNumber n) :=
  decidable_of_iff (c.number? = some n) number?_eq_some_iff

instance (c : Comment) : Decidable (∃ n, c.HasNumber n) :=
  decidable_of_iff (c.number?.isSome = true) <| by
    simp only [Option.isSome_iff_exists, number?_eq_some_iff]

end Source.Comment

/-! ## Sorting -/

/-- Sorting keeps the order of entries that all stand in the relation. -/
theorem filter_mergeSort {α : Type} {le : α → α → Bool}
    (trans : ∀ a b c, le a b = true → le b c = true → le a c = true)
    (total : ∀ a b, (le a b || le b a) = true) {p : α → Bool}
    (hp : ∀ a b, p a = true → p b = true → le a b = true) (l : List α) :
    (l.mergeSort le).filter p = l.filter p := by
  have hpairs : (l.filter p).Pairwise fun a b => le a b = true := by
    refine List.Pairwise.imp_of_mem (fun ha hb _ => ?_) (List.pairwise_of_forall fun _ _ => trivial)
    exact hp _ _ (List.mem_filter.1 ha).2 (List.mem_filter.1 hb).2
  have hsub : (l.filter p).Sublist ((l.mergeSort le).filter p) := by
    have h := (List.sublist_mergeSort trans total hpairs List.filter_sublist).filter p
    rwa [List.filter_filter, funext fun a => Bool.and_self (p a)] at h
  have hlength := ((List.mergeSort_perm l le).filter p).length_eq
  exact (hsub.eq_of_length hlength.symm).symm

namespace Check

/-- The entry of a comment that has a number. -/
def numberedOf? (c : Comment) : Option Numbered := c.number?.map fun n => ⟨n, c.line⟩

theorem numbered_scenarioTags (comments : List Comment) :
    numbered (scenarioTags comments) =
      (comments.filterMap numberedOf?).mergeSort fun a b => decide (a.number ≤ b.number) := by
  have hentries : (scenarioTags comments).filterMap
      (fun t => t.number.map fun n => (⟨n, t.line⟩ : Numbered)) = comments.filterMap numberedOf? := by
    rw [scenarioTags, List.filterMap_filterMap]
    refine List.filterMap_congr fun c _ => ?_
    rw [numberedOf?, Comment.number?]
    cases scenarioTag? c.content <;> rfl
  rw [numbered, hentries]

theorem number_le_trans (a b c : Numbered) (hab : decide (a.number ≤ b.number) = true)
    (hbc : decide (b.number ≤ c.number) = true) : decide (a.number ≤ c.number) = true :=
  decide_eq_true (Nat.le_trans (of_decide_eq_true hab) (of_decide_eq_true hbc))

theorem number_le_total (a b : Numbered) :
    (decide (a.number ≤ b.number) || decide (b.number ≤ a.number)) = true := by
  rw [Bool.or_eq_true, decide_eq_true_iff, decide_eq_true_iff]
  exact Nat.le_total _ _

theorem pairwise_numbered (tags : List ScenarioTag) :
    (numbered tags).Pairwise fun a b => a.number ≤ b.number :=
  (List.pairwise_mergeSort number_le_trans number_le_total _).imp of_decide_eq_true

/-- The numbers that are compared are those of the comments. -/
theorem perm_numbered (comments : List Comment) :
    ((numbered (scenarioTags comments)).map Numbered.number).Perm
      (comments.filterMap Comment.number?) := by
  have hnumbers : (comments.filterMap numberedOf?).map Numbered.number =
      comments.filterMap Comment.number? := by
    rw [List.map_filterMap]
    refine List.filterMap_congr fun c _ => ?_
    rw [numberedOf?, Option.map_map]
    exact Option.map_id'
  rw [numbered_scenarioTags, ← hnumbers]
  exact (List.mergeSort_perm _ _).map Numbered.number

/-- Equal numbers stand in the order of their comments. -/
theorem filter_numbered (comments : List Comment) (n : ℕ) :
    (numbered (scenarioTags comments)).filter (fun e => e.number = n) =
      (comments.filter fun c => c.HasNumber n).map fun c => ⟨n, c.line⟩ := by
  rw [numbered_scenarioTags, filter_mergeSort number_le_trans number_le_total, List.filter_filterMap,
    ← List.filterMap_eq_map, List.filterMap_filter]
  · refine List.filterMap_congr fun c _ => ?_
    rw [numberedOf?]
    cases hc : c.number? with
    | none => simp [← Comment.number?_eq_some_iff, hc]
    | some m => by_cases hm : m = n <;> simp [← Comment.number?_eq_some_iff, hc, hm]
  · intro a b ha hb
    rw [decide_eq_true_iff] at ha hb ⊢
    exact Nat.le_of_eq (ha.trans hb.symm)

/-! ## The first gap -/

theorem firstGap?_eq_some_iff {start expected : ℕ} {entries : List Numbered} {entry : Numbered} :
    firstGap? start entries = some (expected, entry) ↔ ∃ before after,
      entries = before ++ entry :: after ∧
      before.map Numbered.number = List.range' start before.length ∧
      expected = start + before.length ∧ entry.number ≠ expected := by
  induction entries generalizing start with
  | nil => simp [firstGap?]
  | cons n rest ih =>
    rw [firstGap?]
    split_ifs with hn
    · rw [ih]
      constructor
      · rintro ⟨before, after, rfl, hbefore, rfl, hne⟩
        refine ⟨n :: before, after, rfl, ?_, ?_, hne⟩
        · rw [List.map_cons, hn, hbefore, List.length_cons, List.range'_succ]
        · rw [List.length_cons]
          omega
      · rintro ⟨before, after, hsplit, hbefore, rfl, hne⟩
        cases before with
        | nil =>
          obtain ⟨rfl, -⟩ := List.cons.inj hsplit
          exact absurd hn hne
        | cons m before =>
          obtain ⟨rfl, rfl⟩ := List.cons.inj hsplit
          rw [List.map_cons, List.length_cons, List.range'_succ] at hbefore
          refine ⟨before, after, rfl, (List.cons.inj hbefore).2, ?_, hne⟩
          rw [List.length_cons]
          omega
    · constructor
      · rintro ⟨⟩
        exact ⟨[], rest, rfl, rfl, rfl, hn⟩
      · rintro ⟨before, after, hsplit, hbefore, rfl, hne⟩
        cases before with
        | nil =>
          obtain ⟨rfl, -⟩ := List.cons.inj hsplit
          rfl
        | cons m before =>
          obtain ⟨rfl, -⟩ := List.cons.inj hsplit
          rw [List.map_cons, List.length_cons, List.range'_succ] at hbefore
          exact absurd (List.cons.inj hbefore).1 hn

/-- There is no gap exactly if the numbers are those from 1 on in some order. -/
theorem firstGap?_numbered_eq_none_iff (comments : List Comment) :
    firstGap? 1 (numbered (scenarioTags comments)) = none ↔
      (comments.filterMap Comment.number?).Perm
        (List.range' 1 (comments.filterMap Comment.number?).length) := by
  have hperm := perm_numbered comments
  have hlength := hperm.length_eq
  rw [List.length_map] at hlength
  rw [firstGap?_eq_none_iff, hlength]
  refine ⟨fun h => h ▸ hperm.symm, fun h => ?_⟩
  refine List.Perm.eq_of_pairwise (fun a b _ _ => Nat.le_antisymm) ?_ ?_ (hperm.trans h)
  · exact List.pairwise_map.2 (pairwise_numbered _)
  · exact (List.pairwise_lt_range' ..).imp Nat.le_of_lt

section Gap

variable {before after : List ℕ} {expected found : ℕ}

/-- A sorted list that goes on with a number less than the expected one repeats the number before it,
unless it starts with 0. -/
theorem repeats_of_lt (hbefore : ∀ n, n ∈ before ↔ 1 ≤ n ∧ n < expected)
    (hle : ∀ n ∈ before, n ≤ found) (hlt : found < expected) :
    (found + 1 = expected ∧ 2 ≤ (before ++ found :: after).count found) ∨
      (found = 0 ∧ expected = 1) := by
  by_cases hone : expected = 1
  · exact .inr ⟨by omega, hone⟩
  · -- the number before the expected one has come already
    have hlast : expected - 1 ≤ found := hle _ ((hbefore _).2 (by omega))
    have hmem : found ∈ before := (hbefore _).2 (by omega)
    have hcount := List.count_pos_iff.2 hmem
    refine .inl ⟨by omega, ?_⟩
    rw [List.count_append, List.count_cons_self]
    omega

/-- A sorted list that goes on with a number above the expected one does not hold that one. -/
theorem next_of_gt (hbefore : ∀ n, n ∈ before ↔ 1 ≤ n ∧ n < expected)
    (hge : ∀ n ∈ after, found ≤ n) (hlt : expected < found) :
    expected ∉ before ++ found :: after ∧
      ∀ n ∈ before ++ found :: after, expected < n → found ≤ n := by
  have hcases : ∀ n ∈ before ++ found :: after, n < expected ∨ found ≤ n := by
    intro n hn
    rcases List.mem_append.1 hn with hn | hn
    · exact .inl ((hbefore n).1 hn).2
    · rcases List.mem_cons.1 hn with rfl | hn
      · exact .inr (Nat.le_refl _)
      · exact .inr (hge n hn)
  refine ⟨fun hn => ?_, fun n hn hlater => ?_⟩
  · have := hcases expected hn
    omega
  · have := hcases n hn
    omega

/-- The first number of a sorted list that is not the expected one. -/
theorem isGap_of_append (hbefore : before = List.range' 1 before.length)
    (hexpected : expected = 1 + before.length)
    (hsorted : (before ++ found :: after).Pairwise (· ≤ ·)) (hne : found ≠ expected) :
    IsGap (before ++ found :: after) expected found := by
  have hmem (n : ℕ) : n ∈ before ↔ 1 ≤ n ∧ n < expected := by
    rw [hbefore, List.mem_range'_1, hexpected]
  obtain ⟨-, hrest, hacross⟩ := List.pairwise_append.1 hsorted
  refine ⟨fun n h1 hn => List.mem_append_left _ ((hmem n).2 ⟨h1, hn⟩),
    List.mem_append_right _ List.mem_cons_self, ?_⟩
  rcases Nat.lt_or_gt_of_ne hne with hlt | hgt
  · exact .inr (repeats_of_lt hmem (fun n hn => hacross n hn found List.mem_cons_self) hlt)
  · obtain ⟨hmissing, hnext⟩ := next_of_gt hmem (List.pairwise_cons.1 hrest).1 hgt
    exact .inl ⟨hmissing, hgt, hnext⟩

end Gap

section Entries

variable {tags : List ScenarioTag} {expected : ℕ} {entry : Numbered}

theorem isGap_of_firstGap? (h : firstGap? 1 (numbered tags) = some (expected, entry)) :
    IsGap ((numbered tags).map Numbered.number) expected entry.number := by
  obtain ⟨before, after, hsplit, hbefore, hexpected, hne⟩ := firstGap?_eq_some_iff.1 h
  have hsorted := List.pairwise_map.2 (pairwise_numbered tags)
  rw [hsplit, List.map_append, List.map_cons] at hsorted ⊢
  exact isGap_of_append (by rw [List.length_map, hbefore]) (by rw [List.length_map, hexpected])
    hsorted hne

/-- A number that comes again is found at the second entry that has it. -/
theorem exists_filter_of_firstGap? (h : firstGap? 1 (numbered tags) = some (expected, entry))
    (hrepeated : entry.number + 1 = expected) (hone : 1 < expected) :
    ∃ first later, (numbered tags).filter (fun e => e.number = entry.number) =
      first :: entry :: later := by
  obtain ⟨before, after, hsplit, hbefore, rfl, -⟩ := firstGap?_eq_some_iff.1 h
  obtain rfl | ⟨init, last, rfl⟩ := List.eq_nil_or_concat before
  · exact absurd hone (Nat.lt_irrefl 1)
  rw [List.concat_eq_append] at *
  rw [List.length_append, List.length_singleton] at hrepeated hbefore
  rw [List.map_append, List.map_singleton, List.range'_concat] at hbefore
  obtain ⟨hinit, hlast⟩ := List.append_inj' hbefore rfl
  have hnumber : last.number = entry.number := by
    have := (List.cons.inj hlast).1
    omega
  have hnone : init.filter (fun e => e.number = entry.number) = [] := by
    refine List.filter_eq_nil_iff.2 fun e he hsame => ?_
    have hmem : e.number ∈ init.map Numbered.number := List.mem_map_of_mem he
    rw [hinit, List.mem_range'_1] at hmem
    have := of_decide_eq_true hsame
    omega
  rw [hsplit, List.filter_append, List.filter_append, hnone, List.nil_append,
    List.filter_cons_of_pos (by simpa using hnumber), List.filter_cons_of_pos (by simp)]
  exact ⟨last, _, rfl⟩

end Entries

/-- Two members at the start of a filtered list are the first two with the property. -/
theorem exists_of_filter_eq_cons_cons {α : Type} {p : α → Bool} {a b : α} {l later : List α}
    (h : l.filter p = a :: b :: later) : ∃ before between after,
      l = before ++ a :: (between ++ b :: after) ∧ p a = true ∧ p b = true ∧
        ∀ c ∈ before ++ between, p c = false := by
  obtain ⟨before, rest, rfl, hbefore, ha, hrest⟩ := List.filter_eq_cons_iff.1 h
  obtain ⟨between, after, rfl, hbetween, hb, -⟩ := List.filter_eq_cons_iff.1 hrest
  refine ⟨before, between, after, rfl, ha, hb, fun c hc => Bool.eq_false_iff.2 ?_⟩
  exact (List.mem_append.1 hc).elim (hbefore c) (hbetween c)

/-- The comment of the first gap. -/
theorem exists_isCited {comments : List Comment} {expected : ℕ} {entry : Numbered}
    (h : firstGap? 1 (numbered (scenarioTags comments)) = some (expected, entry)) :
    ∃ c, IsCited comments expected entry.number c ∧ c.line = entry.line := by
  by_cases hrepeated : entry.number + 1 = expected ∧ 1 < expected
  · obtain ⟨first, later, hfilter⟩ := exists_filter_of_firstGap? h hrepeated.1 hrepeated.2
    rw [filter_numbered] at hfilter
    obtain ⟨c, rest, hc, hfirst, hrest⟩ := List.map_eq_cons_iff.1 hfilter
    obtain ⟨d, more, rfl, hentry, -⟩ := List.map_eq_cons_iff.1 hrest
    obtain ⟨before, between, after, hsplit, hcn, hdn, hnone⟩ := exists_of_filter_eq_cons_cons hc
    refine ⟨d, ⟨?_, of_decide_eq_true hdn, fun _ _ => ?_⟩, congrArg Numbered.line hentry⟩
    · rw [hsplit]
      simp
    · exact ⟨c, before, between, after, hsplit, of_decide_eq_true hcn,
        fun e he => of_decide_eq_false (hnone e he)⟩
  · have hmem : entry ∈ (numbered (scenarioTags comments)).filter
        fun e => e.number = entry.number :=
      List.mem_filter.2 ⟨mem_of_firstGap? h, decide_eq_true rfl⟩
    rw [filter_numbered] at hmem
    obtain ⟨c, hc, hentry⟩ := List.mem_map.1 hmem
    obtain ⟨hc, hnumber⟩ := List.mem_filter.1 hc
    exact ⟨c, ⟨hc, of_decide_eq_true hnumber, fun h1 h2 => absurd ⟨h1, h2⟩ hrepeated⟩,
      congrArg Numbered.line hentry⟩

/-! ## The issues of both rules -/

theorem length_scenarioTags (comments : List Comment) :
    (scenarioTags comments).length = (comments.filter fun c => c.IsScenario).length := by
  have hcount : List.Forall₂ (fun _ _ => True) (scenarioTags comments)
      (comments.filter fun c => c.IsScenario) := by
    refine forall₂_filterMap (fun c _ => ?_) fun _ _ _ _ => trivial
    rw [Option.isSome_map, Bool.eq_iff_iff, decide_eq_true_iff, Option.isSome_iff_exists]
    exact exists_congr fun digits => scenarioTag?_eq_some_iff.symm
  exact hcount.length_eq

/-- The issue about the number of scenarios comes first, the one about their numbers after it. -/
theorem filter_scenarioCount (a : Analysis) :
    let tests := a.tests.length
    let tags := scenarioTags a.source.comments
    let scenarios := tags.length
    ((scenarioCount a).filter fun i => i.rule == Rule.scenarioCountMismatch) =
        (if tests = scenarios then [] else [Issue.error Rule.scenarioCountMismatch
          s!"Scenario count mismatch: {tests} test procedures but {scenarios} scenarios" 1]) ∧
      ((scenarioCount a).filter fun i => i.rule == Rule.scenarioNumberingGap) =
        ((firstGap? 1 (numbered tags)).map gapIssue).toList := by
  intro tests tags scenarios
  have hne : Rule.scenarioCountMismatch ≠ Rule.scenarioNumberingGap := by decide +kernel
  have hfirst : ∀ i ∈ (if tests = scenarios then [] else [Issue.error Rule.scenarioCountMismatch
      s!"Scenario count mismatch: {tests} test procedures but {scenarios} scenarios" 1]),
      i.rule = Rule.scenarioCountMismatch := by
    intro i hi
    rw [List.mem_ite_nil_left, List.mem_singleton] at hi
    rw [hi.2]
    rfl
  have hsecond : ∀ i ∈ ((firstGap? 1 (numbered tags)).map gapIssue).toList,
      i.rule = Rule.scenarioNumberingGap := by
    intro i hi
    obtain ⟨gap, -, rfl⟩ := Option.map_eq_some_iff.1 (Option.mem_toList.1 hi)
    rfl
  have hsplit : scenarioCount a = _ ++ ((firstGap? 1 (numbered tags)).map gapIssue).toList := rfl
  rw [hsplit, List.filter_append, List.filter_append]
  constructor
  · rw [List.filter_eq_self.2 fun i hi => beq_iff_eq.2 (hfirst i hi),
      List.filter_eq_nil_iff.2 fun i hi h => hne ((beq_iff_eq.1 h).symm.trans (hsecond i hi)),
      List.append_nil]
  · rw [List.filter_eq_self.2 fun i hi => beq_iff_eq.2 (hsecond i hi),
      List.filter_eq_nil_iff.2 fun i hi h => hne ((hfirst i hi).symm.trans (beq_iff_eq.1 h)),
      List.nil_append]

end Check

theorem IsGap.perm {numbers others : List ℕ} {expected found : ℕ} (h : IsGap numbers expected found)
    (hperm : numbers.Perm others) : IsGap others expected found where
  earlier n h1 hn := hperm.mem_iff.1 (h.earlier n h1 hn)
  occurs := hperm.mem_iff.1 h.occurs
  found := by
    obtain ⟨hmissing, hlt, hnext⟩ | ⟨hprevious, hcount⟩ | hzero := h.found
    · exact .inl ⟨fun hn => hmissing (hperm.mem_iff.2 hn), hlt,
        fun n hn => hnext n (hperm.mem_iff.2 hn)⟩
    · exact .inr (.inl ⟨hprevious, hperm.count_eq _ ▸ hcount⟩)
    · exact .inr (.inr hzero)

theorem IsCited.one_le {code : List Char} {expected found : ℕ} {c : Comment}
    (h : IsCited (ofChars code).comments expected found c) : 1 ≤ c.line :=
  one_le_of_mem_commentsFrom h.mem

/-- There is one issue about the number of scenarios if it is not that of the tests. There is one
issue about their numbers if these are not those from 1 on in some order; it has the number where they
do not go on and the one found instead, and cites a comment with that number. -/
theorem exists_numbers_scenarioCount (code : String) :
    let a := Analysis.ofString code
    let issuesOf := fun rule => (validate code).issues.filter fun i => i.rule == rule
    let tests := a.tests.length
    let comments := a.source.comments
    let scenarios := (comments.filter fun c => c.IsScenario).length
    issuesOf Rule.scenarioCountMismatch =
        (if tests = scenarios then [] else [Issue.error Rule.scenarioCountMismatch
          s!"Scenario count mismatch: {tests} test procedures but {scenarios} scenarios" 1]) ∧
      ∃ numbers : List ℕ,
        List.Forall₂ (fun n c => c.HasNumber n) numbers
            (comments.filter fun c => ∃ n, c.HasNumber n) ∧
          ((numbers.Perm (List.range' 1 numbers.length) ∧
              issuesOf Rule.scenarioNumberingGap = []) ∨
            (¬ numbers.Perm (List.range' 1 numbers.length) ∧
              ∃ expected found c, IsGap numbers expected found ∧
                IsCited comments expected found c ∧
                ∃ i, issuesOf Rule.scenarioNumberingGap = [i] ∧ i.line = c.line ∧
                  i = Issue.warning Rule.scenarioNumberingGap
                    s!"Scenario numbering gap: expected {expected} but found {found}" c.line)) := by
  intro a issuesOf tests comments scenarios
  obtain ⟨hmismatch, hgap⟩ := Check.filter_scenarioCount a
  have hcount : issuesOf Rule.scenarioCountMismatch = _ :=
    (filter_issues (by decide +kernel : Rule.lists _ .error .scenarioCount = true) a).trans hmismatch
  have hnumbering : issuesOf Rule.scenarioNumberingGap = _ :=
    (filter_issues (by decide +kernel : Rule.lists _ .warning .scenarioCount = true) a).trans hgap
  rw [Check.length_scenarioTags] at hcount
  refine ⟨hcount, comments.filterMap Comment.number?, ?_, ?_⟩
  · refine forall₂_filterMap (fun c _ => ?_) fun c _ n hn => Comment.number?_eq_some_iff.1 hn
    rw [Bool.eq_iff_iff, decide_eq_true_iff, Option.isSome_iff_exists]
    exact exists_congr fun n => Comment.number?_eq_some_iff.symm
  · rw [hnumbering, ← Check.firstGap?_numbered_eq_none_iff]
    cases hfirst : Check.firstGap? 1 (Check.numbered (Check.scenarioTags comments)) with
    | none => exact .inl ⟨rfl, rfl⟩
    | some gap =>
      obtain ⟨expected, entry⟩ := gap
      obtain ⟨c, hcited, hline⟩ := Check.exists_isCited hfirst
      refine .inr ⟨Option.some_ne_none _, expected, entry.number, c,
        (Check.isGap_of_firstGap? hfirst).perm (Check.perm_numbered comments), hcited, _, ?_, ?_, rfl⟩
      · rw [Option.map_some, Option.toList_some, Check.gapIssue, hline]
      · exact Nat.max_eq_left hcited.one_le

end Acceptance
