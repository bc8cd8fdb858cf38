import Mathlib.Data.List.Forall2
import Acceptance.Proofs.Check.Masked
import Acceptance.Proofs.Check.Rule
import Acceptance.Proofs.Source.Shift
import Acceptance.Proofs.Text.Reader

/-!
# Every violation is reported once

The checks of comments and of calls of Commit go through the tests one by one, and look at the
comments and lines of each. Since no two tests share a line and tests, comments and lines come in
order, going through the tests is the same as going through the comments and the lines of all tests
at once. So each violation has one issue, on its own line.

Main results:

* `flatMap_hasLine`: what stands on the lines of the tests, test by test and at once.
* `allMatches_commitCall?`: the search finds every call of Commit on a line.
* `forall₂_issues`: the violations of a source and their issues.
-/

namespace Acceptance

open Text Source

/-! ## Specification -/

namespace Analysis

/-- Whether a line belongs to a test. -/
def isInTest (a : Analysis) (line : ℕ) : Bool := a.tests.any (·.hasLine line)

/-- The comments that open on the lines of tests, are not blank and start with no tag. -/
def forbiddenComments (a : Analysis) : List Comment :=
  a.source.comments.filter fun c =>
    a.isInTest c.line && (!allBlank c.content && !Check.isTagged c)

/-- The calls of Commit on the masked lines of tests, each with its line and its place on it. -/
def commitCalls (a : Analysis) : List (Line × ℕ) :=
  (a.source.lines.filter fun l => a.isInTest l.number).flatMap fun l =>
    (starts Check.commitCall? none l.masked).map fun i => (l, i)

end Analysis

/-! ## Separate routines -/

/-- A list in the order of `key`, cut where `p` has ended and `q` has not started. -/
theorem filter_or_of_le {α : Type} {key : α → ℕ} {p q : α → Bool} {bound : ℕ}
    (hp : ∀ x, p x = true → key x ≤ bound) (hq : ∀ x, q x = true → bound < key x)
    {l : List α} (h : l.Pairwise fun x y => key x ≤ key y) :
    (l.filter fun x => p x || q x) = l.filter p ++ l.filter q := by
  induction l with
  | nil => rfl
  | cons x l ih =>
    obtain ⟨hx, hl⟩ := List.pairwise_cons.1 h
    have ih := ih hl
    cases hpx : p x with
    | true =>
      have hqx : q x = false := by
        by_contra hne
        have h1 := hp x hpx
        have h2 := hq x (Bool.not_eq_false _ ▸ hne)
        omega
      simp only [List.filter_cons, hpx, hqx, Bool.true_or, if_true, ih]
      rfl
    | false =>
      cases hqx : q x with
      | false => simpa [List.filter_cons, hpx, hqx] using ih
      | true =>
        -- what comes behind is too late for `p`
        have hnone : l.filter p = [] := by
          refine List.filter_eq_nil_iff.2 fun y hy hpy => ?_
          have h1 := hq x hqx
          have h2 := hx y hy
          have h3 := hp y hpy
          omega
        rw [hnone] at ih
        simp only [List.filter_cons, hpx, hqx, Bool.or_true, if_true, ih, hnone]
        rfl

/-- What stands on the lines of separate routines, routine by routine and at once. -/
theorem flatMap_hasLine {α : Type} {key : α → ℕ} {l : List α}
    (h : l.Pairwise fun x y => key x ≤ key y) {rs : List Routine}
    (horder : ∀ r ∈ rs, r.anchorLine ≤ r.headerLine)
    (hrs : rs.Pairwise fun r q => r.endLine < q.anchorLine) :
    (rs.flatMap fun r => l.filter fun x => r.hasLine (key x)) =
      l.filter fun x => rs.any fun r => r.hasLine (key x) := by
  induction rs with
  | nil => simp
  | cons r rs ih =>
    obtain ⟨hr, hrs⟩ := List.pairwise_cons.1 hrs
    have hfirst : ∀ x, r.hasLine (key x) = true → key x ≤ r.endLine := fun x hx =>
      (Routine.hasLine_iff.1 hx).2
    have hlater : ∀ x, (rs.any fun q => q.hasLine (key x)) = true → r.endLine < key x := by
      intro x hx
      obtain ⟨q, hq, hline⟩ := List.any_eq_true.1 hx
      have h1 := hr q hq
      have h2 := horder q (List.mem_cons_of_mem r hq)
      have h3 := (Routine.hasLine_iff.1 hline).1
      omega
    simp only [List.any_cons]
    rw [List.flatMap_cons, ih (fun q hq => horder q (List.mem_cons_of_mem r hq)) hrs,
      filter_or_of_le hfirst hlater h]

theorem spans_of_mem_tests {code : List Char} {r : Routine}
    (h : r ∈ (Analysis.ofChars code).tests) : r.Spans 0 (ofChars code).lines.length :=
  spans_of_mem_routines (List.mem_of_mem_filter h)

theorem flatMap_tests {α : Type} {key : α → ℕ} {l : List α}
    (h : l.Pairwise fun x y => key x ≤ key y) (code : List Char) :
    ((Analysis.ofChars code).tests.flatMap fun r => l.filter fun x => r.hasLine (key x)) =
      l.filter fun x => (Analysis.ofChars code).isInTest (key x) :=
  flatMap_hasLine h (fun _ hr => (spans_of_mem_tests hr).anchor_le)
    ((pairwise_routines (ofChars code)).sublist List.filter_sublist)

/-! ## Comments -/

namespace Check

theorem filter_testComments (a : Analysis) (test : Routine) :
    (testComments a test).filter (fun i => i.rule == Rule.forbiddenComment) =
      ((a.commentsOf test).filter fun c => !isAllowed c).map (forbiddenIssue test) := by
  have htags : ∀ tag ∈ tags, (tag.rule == Rule.forbiddenComment) = false := by decide +kernel
  rw [testComments_eq, List.filter_append, List.filter_eq_nil_iff.2, List.nil_append,
    List.filter_eq_self.2]
  · intro i hi
    obtain ⟨c, -, rfl⟩ := List.mem_map.1 hi
    exact beq_self_eq_true _
  · intro i hi
    obtain ⟨tag, htag, rfl⟩ := List.mem_map.1 hi
    have hne := htags tag (List.mem_of_mem_filter htag)
    exact fun he => Bool.false_ne_true (hne.symm.trans he)

theorem forbiddenComments_eq (code : List Char) :
    (Analysis.ofChars code).forbiddenComments =
      (Analysis.ofChars code).tests.flatMap fun test =>
        ((Analysis.ofChars code).commentsOf test).filter fun c => !isAllowed c := by
  have hsorted : (ofChars code).comments.Pairwise fun c d => c.line ≤ d.line :=
    pairwise_commentsFrom 1 (tokens code)
  have htests := flatMap_tests hsorted code
  have hboth : (Analysis.ofChars code).forbiddenComments =
      ((ofChars code).comments.filter fun c => (Analysis.ofChars code).isInTest c.line).filter
        fun c => !isAllowed c := by
    rw [List.filter_filter]
    refine List.filter_congr fun c _ => ?_
    rw [isAllowed, Bool.not_or, Bool.and_comm]
  rw [hboth, ← htests, List.filter_flatMap]
  rfl

theorem line_forbiddenIssue {c : Comment} (h : 1 ≤ c.line) (test : Routine) :
    (forbiddenIssue test c).line = c.line := Nat.max_eq_left h

/-! ## Calls of Commit -/

/-- Nothing but the first letter of a call can start a call. -/
theorem commitCall?_inside {before : Option Char} {c : Char} {s : List Char} {found : Unit}
    {rest : List Char} (h : commitCall? before (c :: s) = some (found, rest)) :
    ∃ u, s = u ++ rest ∧ ∀ d ∈ u, ∀ b t, commitCall? b (d :: t) = none := by
  have hquiet {d : Char} (hd : foldLetter d ≠ 'c') (b : Option Char) (t : List Char) :
      commitCall? b (d :: t) = none := by
    apply commitCall?_eq_none
    simp [isCommitStart, hd]
  simp only [commitCall?, Option.bind_eq_bind, Option.bind_eq_some_iff] at h
  obtain ⟨-, -, behind, hword, left, hparen, he⟩ := h
  cases he
  obtain ⟨word, hfold, hs⟩ := keyword?_eq_some_iff.1 hword
  rw [char?_eq_some_iff] at hparen
  have hblanks : behind.takeWhile isBlank ++ '(' :: rest = behind := by
    rw [← hparen]
    exact List.takeWhile_append_dropWhile
  cases word with
  | nil => cases hfold
  | cons d word =>
    obtain ⟨rfl, rfl⟩ : c = d ∧ s = word ++ behind := by simpa using hs
    have hletters : word.map foldLetter = "ommit".toList := (List.cons.inj hfold).2
    refine ⟨word ++ behind.takeWhile isBlank ++ ['('], ?_, fun e he => hquiet ?_⟩
    · simp [hblanks]
    · rcases List.mem_append.1 he with he | he
      · rcases List.mem_append.1 he with he | he
        · have hmem : foldLetter e ∈ "ommit".toList := hletters ▸ List.mem_map_of_mem he
          rintro hc
          rw [hc] at hmem
          exact absurd hmem (by decide)
        · intro hc
          have hblank := List.all_eq_true.1 List.all_takeWhile e he
          have hletter : isFoldedLetter e = true := by rw [isFoldedLetter, hc]; decide
          rw [not_isBlank_of_isFoldedLetter hletter] at hblank
          cases hblank
      · rw [List.mem_singleton.1 he]
        decide

/-- The search finds every call of Commit. -/
theorem allMatches_commitCall? (s : List Char) :
    (allMatches commitCall? s).map Prod.fst =
      (starts commitCall? none s).map fun i => byteLength (s.take i) := by
  rw [allMatches, map_fst_matchesFrom (fun _ _ _ _ _ h => commitCall?_inside h)
    (by rintro d ⟨⟩)]
  simp only [Nat.zero_add]

/-- Where one thing is said of every find, it is said once for each call. -/
theorem map_const_commitCall? {β : Type} (b : β) (s : List Char) :
    ((allMatches commitCall? s).map fun _ => b) = (starts commitCall? none s).map fun _ => b := by
  have hlen := congrArg List.length (allMatches_commitCall? s)
  rw [List.length_map, List.length_map] at hlen
  rw [List.map_const', List.map_const', hlen]

theorem testCommits_eq (lines : List Line) (test : Routine) :
    testCommits lines test = ((lines.filter fun l => test.hasLine l.number).flatMap fun l =>
      (starts commitCall? none l.masked).map fun i => (l, i)).map
        fun p => commitIssue test p.1.number := by
  rw [List.map_flatMap, testCommits]
  refine List.flatMap_congr fun l _ => ?_
  rw [map_const_commitCall?, List.map_map]
  rfl

theorem commitCalls_eq (code : List Char) :
    (Analysis.ofChars code).commitCalls =
      (Analysis.ofChars code).tests.flatMap fun test =>
        ((ofChars code).lines.filter fun l => test.hasLine l.number).flatMap fun l =>
          (starts commitCall? none l.masked).map fun i => (l, i) := by
  have hsorted : (ofChars code).lines.Pairwise fun k l => k.number ≤ l.number :=
    (ascends_lines (ofChars code)).imp Nat.le_of_lt
  rw [Analysis.commitCalls]
  show ((ofChars code).lines.filter _).flatMap _ = _
  rw [← flatMap_tests hsorted code, List.flatMap_assoc]

end Check

/-! ## All issues -/

/-- Two lists made test by test are related if the parts of each test are. -/
theorem forall₂_flatMap_tests {α β : Type} {R : α → β → Prop} {a : Analysis}
    {f : Routine → List α} {g : Routine → List β}
    (h : ∀ test ∈ a.tests, List.Forall₂ R (f test) (g test)) :
    List.Forall₂ R (a.tests.flatMap f) (a.tests.flatMap g) := by
  have htests : List.Forall₂ (fun t u => t = u ∧ t ∈ a.tests) a.tests a.tests :=
    List.forall₂_same.2 fun t ht => ⟨rfl, ht⟩
  refine List.rel_flatMap htests ?_
  rintro t _ ⟨rfl, ht⟩
  exact h t ht

variable (code : List Char)

theorem forall₂_forbiddenComments :
    List.Forall₂ (fun i c => ∃ test ∈ (Analysis.ofChars code).tests,
        test.headerLine ≤ c.line ∧ c.line ≤ test.endLine ∧
        i = Check.forbiddenIssue test c ∧ i.line = c.line)
      ((Check.comments (Analysis.ofChars code)).filter fun i => i.rule == Rule.forbiddenComment)
      (Analysis.ofChars code).forbiddenComments := by
  rw [Check.comments, List.filter_flatMap, Check.forbiddenComments_eq]
  refine forall₂_flatMap_tests fun test ht => ?_
  rw [Check.filter_testComments, List.forall₂_map_left_iff]
  refine List.forall₂_same.2 fun c hc => ?_
  obtain ⟨hmem, hline⟩ := List.mem_filter.1 (List.mem_of_mem_filter hc)
  obtain ⟨hfirst, hlast⟩ := between_iff.1 hline
  exact ⟨test, ht, hfirst, hlast, rfl,
    Check.line_forbiddenIssue (one_le_of_mem_commentsFrom hmem) test⟩

theorem forall₂_commitCalls :
    List.Forall₂ (fun i p => ∃ test ∈ (Analysis.ofChars code).tests,
        test.headerLine ≤ p.1.number ∧ p.1.number ≤ test.endLine ∧
        i = Check.commitIssue test p.1.number ∧ i.line = p.1.number)
      (Check.commit (Analysis.ofChars code)) (Analysis.ofChars code).commitCalls := by
  rw [Check.commit, Check.commitCalls_eq]
  refine forall₂_flatMap_tests fun test ht => ?_
  rw [Check.testCommits_eq, List.forall₂_map_left_iff]
  refine List.forall₂_same.2 fun p hp => ?_
  obtain ⟨l, hl, hplace⟩ := List.mem_flatMap.1 hp
  obtain ⟨i, -, rfl⟩ := List.mem_map.1 hplace
  obtain ⟨hmem, hline⟩ := List.mem_filter.1 hl
  obtain ⟨hfirst, hlast⟩ := Routine.hasLine_iff.1 hline
  exact ⟨test, ht, hfirst, hlast, rfl, Nat.max_eq_left (one_le_number hmem)⟩

/-- An issue about comments is about a missing tag, or on a line of a test. -/
theorem extent_of_mem_comments {i : Issue} (h : i ∈ Check.comments (Analysis.ofChars code)) :
    ∃ test ∈ (Analysis.ofChars code).tests,
      (∃ tag ∈ Check.tags, i = Check.missingIssue test tag ∧ i.line = test.anchorLine) ∨
        test.headerLine ≤ i.line ∧ i.line ≤ test.endLine := by
  obtain ⟨test, ht, hi⟩ := List.mem_flatMap.1 h
  refine ⟨test, ht, ?_⟩
  rw [Check.testComments_eq, List.mem_append, List.mem_map, List.mem_map] at hi
  obtain ⟨tag, htag, rfl⟩ | ⟨c, hc, rfl⟩ := hi
  · exact .inl ⟨tag, List.mem_of_mem_filter htag, rfl,
      Nat.max_eq_left (spans_of_mem_tests ht).first_lt⟩
  · obtain ⟨hmem, hline⟩ := List.mem_filter.1 (List.mem_of_mem_filter hc)
    rw [Check.line_forbiddenIssue (one_le_of_mem_commentsFrom hmem)]
    exact .inr (between_iff.1 hline)

/-- An issue about a call of Commit is on a line of a test. -/
theorem extent_of_mem_commit {i : Issue} (h : i ∈ Check.commit (Analysis.ofChars code)) :
    ∃ test ∈ (Analysis.ofChars code).tests,
      test.headerLine ≤ i.line ∧ i.line ≤ test.endLine := by
  obtain ⟨test, ht, hi⟩ := List.mem_flatMap.1 h
  obtain ⟨l, hl, hline, code, severity, message, -, rfl⟩ := Check.cites_of_mem_testCommits hi
  have hnumber : (Issue.of code severity message l.number).line = l.number :=
    Nat.max_eq_left (one_le_number hl)
  rw [hnumber]
  exact ⟨test, ht, Routine.hasLine_iff.1 hline⟩

/-- The routines of a source lie one behind the other on its lines. So the violations of two rules
and their issues correspond: one issue for each comment that opens on the lines of a test, is not
blank and starts with no tag, and one for each call of Commit on the masked lines of a test, each on
its own line. The two checks report nothing else but missing tags, on the first line of a test. -/
theorem forall₂_issues (code : String) :
    let a := Analysis.ofString code
    let issuesOf (rule : String) := (validate code).issues.filter fun i => i.rule == rule
    (∀ r ∈ a.routines, 1 ≤ r.anchorLine ∧ r.anchorLine ≤ r.headerLine ∧
        r.headerLine ≤ r.endLine ∧ r.endLine ≤ a.source.lines.length) ∧
      a.routines.Pairwise (fun r q => r.endLine < q.anchorLine) ∧
      List.Forall₂ (fun i c => ∃ test ∈ a.tests,
          test.headerLine ≤ c.line ∧ c.line ≤ test.endLine ∧
          i = Check.forbiddenIssue test c ∧ i.line = c.line)
        (issuesOf Rule.forbiddenComment) a.forbiddenComments ∧
      List.Forall₂ (fun i p => ∃ test ∈ a.tests,
          test.headerLine ≤ p.1.number ∧ p.1.number ≤ test.endLine ∧
          i = Check.commitIssue test p.1.number ∧ i.line = p.1.number)
        (issuesOf Rule.forbiddenCommitInTest) a.commitCalls ∧
      (∀ i ∈ check .comments code, ∃ test ∈ a.tests,
        (∃ tag ∈ Check.tags, i = Check.missingIssue test tag ∧ i.line = test.anchorLine) ∨
          test.headerLine ≤ i.line ∧ i.line ≤ test.endLine) ∧
      ∀ i ∈ check .commit code, ∃ test ∈ a.tests,
        test.headerLine ≤ i.line ∧ i.line ≤ test.endLine := by
  intro a issuesOf
  have hcomments : issuesOf Rule.forbiddenComment =
      (Check.comments (Analysis.ofChars code.toList)).filter
        fun i => i.rule == Rule.forbiddenComment :=
    filter_issues (by decide +kernel : Rule.lists _ .error .comments = true) a
  have hcommit : issuesOf Rule.forbiddenCommitInTest =
      Check.commit (Analysis.ofChars code.toList) := by
    refine (filter_issues (by decide +kernel : Rule.lists _ .error .commit = true) a).trans ?_
    refine List.filter_eq_self.2 fun i hi => ?_
    obtain ⟨r, hr, hcode, hcategory, -⟩ := follows_of_mem_issues hi
    have hrules : ∀ r ∈ Rule.catalog,
        r.category = .commit → r.code = Rule.forbiddenCommitInTest := by decide +kernel
    rw [← hcode, hrules r hr hcategory]
    exact beq_self_eq_true _
  refine ⟨fun r hr => ?_, pairwise_routines _, ?_, ?_, fun i hi => ?_, fun i hi => ?_⟩
  · have spans := spans_of_mem_routines hr
    exact ⟨spans.first_lt, spans.anchor_le, spans.header_le, spans.end_le⟩
  · rw [hcomments]
    exact forall₂_forbiddenComments code.toList
  · rw [hcommit]
    exact forall₂_commitCalls code.toList
  · exact extent_of_mem_comments code.toList hi
  · exact extent_of_mem_commit code.toList hi

end Acceptance
