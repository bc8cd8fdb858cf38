import Mathlib.Data.List.Basic
import Acceptance.Check.Validate
import Acceptance.Proofs.Source.Shift

/-!
# Checks of two sources one after the other

Four checks look at one test or one block of variables at a time. Where a source ends at rest, its
tests lie on its own lines and those of the text behind it on the lines behind, so neither sees the
comments and the lines of the other. The issues of the whole are then those of the two parts.

Main results:

* `flatMap_tests_append`: a check that looks at one test at a time.
* `issues_append`: structure and issues of two sources one after the other.
-/

namespace Acceptance

open Text Source

/-! ## Issues on later lines -/

/-- An issue with its line counted on by `n`. -/
def Issue.shift (n : ℕ) (i : Issue) : Issue := { i with line := i.line + n }

variable {n : ℕ}

theorem Issue.of_add {line : ℕ} (h : 1 ≤ line) (rule : String) (severity : Severity)
    (message : String) :
    Issue.of rule severity message (line + n) = (Issue.of rule severity message line).shift n := by
  have h1 : max (line + n) 1 = max line 1 + n := by omega
  rw [Issue.of, Issue.shift, Issue.of, h1]

namespace Check

theorem testNaming_shift {r : Routine} (h : 1 ≤ r.anchorLine) :
    testNaming (r.shift n) = (testNaming r).map (Issue.shift n) := by
  have hname : (r.shift n).name = r.name := rfl
  rw [testNaming, testNaming, List.map_append, List.map_append, hname, Routine.anchorLine_shift]
  refine congrArg₂ _ (congrArg₂ _ ?_ ?_) ?_
  · split_ifs
    · rfl
    · exact congrArg (fun i => [i]) (Issue.of_add h _ _ _)
  · split_ifs
    · exact congrArg (fun i => [i]) (Issue.of_add h _ _ _)
    · rfl
  · split_ifs
    · exact congrArg (fun i => [i]) (Issue.of_add h _ _ _)
    · rfl

/-- The issues about the comments of a test come from the test and its comments alone. -/
theorem testComments_congr {a b : Analysis} {r : Routine} (h : a.commentsOf r = b.commentsOf r) :
    testComments a r = testComments b r := by
  rw [testComments, testComments, h]

theorem testComments_shift {a b : Analysis} {r : Routine} (h : 1 ≤ r.anchorLine)
    (hb : ∀ c ∈ b.commentsOf r, 1 ≤ c.line)
    (hc : a.commentsOf (r.shift n) = (b.commentsOf r).map (Comment.shift n)) :
    testComments a (r.shift n) = (testComments b r).map (Issue.shift n) := by
  have hname : (r.shift n).name = r.name := rfl
  have hmarks (tag : Tag) :
      ((b.commentsOf r).map (Comment.shift n)).any tag.marks = (b.commentsOf r).any tag.marks := by
    rw [List.any_map]
    rfl
  have hallowed : ((b.commentsOf r).map (Comment.shift n)).filter (fun c => !isAllowed c) =
      ((b.commentsOf r).filter fun c => !isAllowed c).map (Comment.shift n) := by
    rw [List.filter_map]
    rfl
  rw [testComments, testComments, List.map_append, List.map_map, List.map_map, hc, hname,
    Routine.anchorLine_shift, hallowed, List.map_map]
  simp only [hmarks]
  refine congrArg₂ _ (List.map_congr_left fun tag _ => Issue.of_add h _ _ _)
    (List.map_congr_left fun c hm => ?_)
  exact Issue.of_add (hb c (List.mem_of_mem_filter hm)) _ _ _

theorem blockOrder_shift {declarations : List Declaration} (h : ∀ d ∈ declarations, 1 ≤ d.line)
    (highest : Option ℕ) :
    blockOrder highest (declarations.map (Declaration.shift n)) =
      (blockOrder highest declarations).map (Issue.shift n) := by
  induction declarations generalizing highest with
  | nil => simp
  | cons d ds ih =>
    have ih := ih fun e he => h e (List.mem_cons_of_mem _ he)
    have htype : (d.shift n).typeName = d.typeName := rfl
    rw [List.map_cons, blockOrder.eq_def, blockOrder.eq_def _ (d :: ds)]
    simp only [htype]
    cases typeRank? d.typeName with
    | none => exact ih highest
    | some rank =>
      cases highest with
      | none => exact ih _
      | some top =>
        simp only
        split_ifs
        · rw [List.map_cons, ih]
          exact congrArg (· :: _) (Issue.of_add (h d List.mem_cons_self) _ _ _)
        · exact ih _

end Check

/-! ## The parts of the analysis -/

section Parts

variable {a : List Char} (h : EndsAtRest a) (b : List Char)

include h

theorem tests_append :
    (Analysis.ofChars (a ++ b)).tests = (Analysis.ofChars a).tests ++
      (Analysis.ofChars b).tests.map (Routine.shift (lineFeeds a)) := by
  show (ofChars (a ++ b)).routines.filter (·.isTest) = _
  rw [routines_append h, List.filter_append, List.filter_map]
  simp only [Function.comp_def, Routine.isTest_shift]
  rfl

/-- The tests of the first part end on its lines. -/
theorem endLine_le_of_mem_tests {r : Routine} (hr : r ∈ (Analysis.ofChars a).tests) :
    r.endLine ≤ lineFeeds a := by
  rw [← h.length_lines]
  exact (spans_of_mem_routines (List.mem_of_mem_filter hr)).end_le

theorem commentsOf_first {r : Routine} (hr : r ∈ (Analysis.ofChars a).tests) :
    (Analysis.ofChars (a ++ b)).commentsOf r = (Analysis.ofChars a).commentsOf r := by
  have hend := endLine_le_of_mem_tests h hr
  show (ofChars (a ++ b)).comments.filter _ = (ofChars a).comments.filter _
  rw [comments_append h.line h.code, List.filter_append]
  refine (congrArg _ (List.filter_eq_nil_iff.2 fun c hc => ?_)).trans (List.append_nil _)
  obtain ⟨d, hd, rfl⟩ := List.mem_map.1 hc
  have hpos : 1 ≤ d.line := one_le_of_mem_commentsFrom hd
  rw [between_iff, Comment.line_shift]
  omega

theorem commentsOf_second {r : Routine} (hr : r ∈ (Analysis.ofChars b).routines) :
    (Analysis.ofChars (a ++ b)).commentsOf (r.shift (lineFeeds a)) =
      ((Analysis.ofChars b).commentsOf r).map (Comment.shift (lineFeeds a)) := by
  obtain ⟨header, hheader, hline⟩ := exists_header hr
  have hpos := one_le_number hheader
  show (ofChars (a ++ b)).comments.filter _ = ((ofChars b).comments.filter _).map _
  rw [comments_append h.line h.code, List.filter_append, List.filter_map]
  refine (congrArg₂ _ (List.filter_eq_nil_iff.2 fun c hc => ?_) ?_).trans (List.nil_append _)
  · have hle := line_le_of_mem_comments h.line h.code hc
    rw [between_iff, Routine.headerLine_shift]
    omega
  · refine congrArg _ (List.filter_congr fun c _ => ?_)
    exact Routine.hasLine_shift r c.line

theorem testCommits_first {r : Routine} (hr : r ∈ (Analysis.ofChars a).tests) :
    Check.testCommits (ofChars (a ++ b)).lines r = Check.testCommits (ofChars a).lines r := by
  have hend := endLine_le_of_mem_tests h hr
  rw [Check.testCommits, Check.testCommits, lines_append h.line h.code, List.filter_append]
  refine congrArg (List.flatMap _) ((congrArg _ (List.filter_eq_nil_iff.2 fun l hl => ?_)).trans
    (List.append_nil _))
  obtain ⟨k, hk, rfl⟩ := List.mem_map.1 hl
  have hpos := one_le_number hk
  rw [Routine.hasLine_iff, Line.number_shift]
  omega

theorem testCommits_second {r : Routine} (hr : r ∈ (Analysis.ofChars b).routines) :
    Check.testCommits (ofChars (a ++ b)).lines (r.shift (lineFeeds a)) =
      (Check.testCommits (ofChars b).lines r).map (Issue.shift (lineFeeds a)) := by
  obtain ⟨header, hheader, hline⟩ := exists_header hr
  have hpos := one_le_number hheader
  have hfirst : (ofChars a).lines.filter
      (fun l => (r.shift (lineFeeds a)).hasLine l.number) = [] := by
    refine List.filter_eq_nil_iff.2 fun l hl => ?_
    have hlt := number_lt_of_mem_zipLines hl
    rw [← Source.lines, h.length_lines] at hlt
    rw [Routine.hasLine_iff, Routine.headerLine_shift]
    omega
  have hsecond : ((ofChars b).lines.map (Line.shift (lineFeeds a))).filter
        (fun l => (r.shift (lineFeeds a)).hasLine l.number) =
      ((ofChars b).lines.filter fun l => r.hasLine l.number).map (Line.shift (lineFeeds a)) := by
    rw [List.filter_map]
    exact congrArg _ (List.filter_congr fun l _ => Routine.hasLine_shift r l.number)
  rw [Check.testCommits, Check.testCommits, lines_append h.line h.code, List.filter_append, hfirst,
    hsecond, List.nil_append, List.flatMap_map, List.map_flatMap]
  refine List.flatMap_congr fun l hl => ?_
  rw [List.map_map]
  refine List.map_congr_left fun _ _ => ?_
  exact Issue.of_add (one_le_number (List.mem_of_mem_filter hl)) _ _ _

/-- A check that looks at one test at a time, where the tests of the first part give the same in the
whole as in their part, and those of the second part the same on later lines. -/
theorem flatMap_tests_append {f f₁ f₂ : Routine → List Issue}
    (hf : ∀ r ∈ (Analysis.ofChars a).tests, f r = f₁ r)
    (hs : ∀ r ∈ (Analysis.ofChars b).tests,
      f (r.shift (lineFeeds a)) = (f₂ r).map (Issue.shift (lineFeeds a))) :
    (Analysis.ofChars (a ++ b)).tests.flatMap f = (Analysis.ofChars a).tests.flatMap f₁ ++
      ((Analysis.ofChars b).tests.flatMap f₂).map (Issue.shift (lineFeeds a)) := by
  rw [tests_append h, List.flatMap_append, List.flatMap_map, List.map_flatMap,
    List.flatMap_congr hf, List.flatMap_congr hs]

end Parts

/-- Two sources one after the other, of which the first ends at rest: routines, comments and blocks
of variables of the whole are those of the first, followed by those of the second on lines that are
counted on, and so are the issues about names, comments, calls of Commit and the order of
variables. -/
theorem issues_append {a : String} (h : EndsAtRest a.toList) (b : String) :
    let n := (Source.ofString a).lines.length
    let whole := Analysis.ofString (a ++ b)
    let first := Analysis.ofString a
    let second := Analysis.ofString b
    whole.routines = first.routines ++ second.routines.map (Routine.shift n) ∧
      whole.source.comments = first.source.comments ++ second.source.comments.map (Comment.shift n) ∧
      whole.varBlocks = first.varBlocks ++ second.varBlocks.map (VarBlock.shift n) ∧
      ∀ category ∈ [Category.naming, .comments, .commit, .variableOrder],
        check category (a ++ b) =
          check category a ++ (check category b).map (Issue.shift n) := by
  intro n whole first second
  have hn : n = lineFeeds a.toList := h.length_lines
  have hwhole : whole = Analysis.ofChars (a.toList ++ b.toList) :=
    congrArg Analysis.ofChars String.toList_append
  have hanchor : ∀ r ∈ second.tests, 1 ≤ r.anchorLine := fun r hr =>
    one_le_anchorLine (List.mem_of_mem_filter hr)
  have hblocks := varBlocks_append h b.toList
  refine ⟨?_, ?_, ?_, fun category hc => ?_⟩
  · rw [hwhole, hn]
    exact routines_append h b.toList
  · rw [hwhole, hn]
    exact comments_append h.line h.code b.toList
  · rw [hwhole, hn]
    exact hblocks
  · show whole.issues category = first.issues category ++ (second.issues category).map (Issue.shift n)
    rw [hwhole, hn]
    simp only [List.mem_cons, List.not_mem_nil, or_false] at hc
    rcases hc with rfl | rfl | rfl | rfl
    · exact flatMap_tests_append h b.toList (fun _ _ => rfl)
        fun r hr => Check.testNaming_shift (hanchor r hr)
    · exact flatMap_tests_append h b.toList
        (fun r hr => Check.testComments_congr (commentsOf_first h b.toList hr))
        fun r hr => Check.testComments_shift (hanchor r hr)
          (fun c hc => one_le_of_mem_commentsFrom (List.mem_of_mem_filter hc))
          (commentsOf_second h b.toList (List.mem_of_mem_filter hr))
    · exact flatMap_tests_append h b.toList (fun r hr => testCommits_first h b.toList hr)
        fun r hr => testCommits_second h b.toList (List.mem_of_mem_filter hr)
    · show (ofChars (a.toList ++ b.toList)).varBlocks.flatMap _ = _
      rw [hblocks, List.flatMap_append, List.flatMap_map]
      refine congrArg _ (Eq.trans (List.flatMap_congr fun block hm => ?_) List.map_flatMap.symm)
      exact Check.blockOrder_shift (fun d hd => one_le_line_of_mem_varBlocks hm hd) none

/-- A test with a call of Commit behind another: each has its own issue, on its own line. -/
theorem issues_append_commit :
    let a := "[Test]\nprocedure A()\nbegin\n  Commit(); // done\nend;\n"
    let b := "[Test]\nprocedure B()\nbegin\n  Commit();\nend;\n"
    EndsAtRest a.toList ∧ (check .commit a).map Issue.line = [4] ∧
      check .commit (a ++ b) = check .commit a ++ (check .commit b).map (Issue.shift 5) ∧
      (check .commit (a ++ b)).map Issue.line = [4, 9] := by
  intro a b
  have hrest : EndsAtRest a.toList := by decide +kernel
  have hlines : (Source.ofString a).lines.length = 5 := by decide +kernel
  have hcommit := (issues_append hrest b).2.2.2 .commit (by decide)
  rw [hlines] at hcommit
  refine ⟨hrest, by decide +kernel, hcommit, ?_⟩
  rw [hcommit]
  decide +kernel

end Acceptance
