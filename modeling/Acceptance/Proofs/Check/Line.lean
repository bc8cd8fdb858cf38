import Mathlib.Data.List.Basic
import Acceptance.Proofs.Check.Rule
import Acceptance.Proofs.Source.Position
import Acceptance.Proofs.Source.Shift
import Acceptance.Proofs.Source.Views
import Acceptance.Proofs.Text.Search

/-!
# Lines of issues

Every issue cites a line of the source, or the first line where the source has none. The issues about
TestPermissions and about names of objects cite the line on which their match begins.

Main results:

* `line_le_of_cited`: the lines that a check may cite are lines of the source.
* `lines_agree`: all ways of numbering lines, and the lines of issues.
-/

namespace Acceptance

open Text Source

/-! ## Lines that are cited -/

section Cited

variable {code : List Char}

theorem lineOf_le_of_mem_allMatches {α : Type}
    {find? : Option Char → List Char → Option (α × List Char)} {p : ℕ × α}
    (h : p ∈ allMatches find? (mask code)) :
    (ofChars code).lineOf p.1 ≤ (ofChars code).lines.length := by
  have hlt := lt_byteLength_of_mem_allMatches h
  rw [byteLength_masked] at hlt
  exact lineOf_le_length code hlt

/-- The lines that a check may cite are lines of the source, or the first line. -/
theorem line_le_of_cited {category : Category} {line : ℕ}
    (h : (Analysis.ofChars code).Cited category line) :
    line ≤ max 1 (ofChars code).lines.length := by
  have hlines (h : line ≤ (ofChars code).lines.length) :
      line ≤ max 1 (ofChars code).lines.length := h.trans (Nat.le_max_right _ _)
  have hspans {r : Routine} (hr : r ∈ (Analysis.ofChars code).tests) :
      r.Spans 0 (ofChars code).lines.length := spans_of_mem_routines (List.mem_of_mem_filter hr)
  have hanchor {r : Routine} (hr : r ∈ (Analysis.ofChars code).tests) :
      r.anchorLine ≤ (ofChars code).lines.length :=
    ((hspans hr).anchor_le.trans (hspans hr).header_le).trans (hspans hr).end_le
  cases category with
  | naming =>
    obtain ⟨test, ht, rfl⟩ := h
    exact hlines (hanchor ht)
  | comments =>
    obtain ⟨test, ht, rfl | ⟨c, hc, rfl⟩⟩ := h
    · exact hlines (hanchor ht)
    · exact hlines (line_le_length code (List.mem_of_mem_filter hc))
  | permissions =>
    obtain ⟨p, hp, rfl⟩ := h
    exact hlines (lineOf_le_of_mem_allMatches hp)
  | commit =>
    obtain ⟨l, hl, rfl⟩ := h
    exact hlines (number_le_length hl)
  | objectLength =>
    obtain ⟨p, hp, rfl⟩ := h
    exact hlines (lineOf_le_of_mem_allMatches hp)
  | scenarioCount =>
    obtain rfl | ⟨c, hc, rfl⟩ := h
    · exact Nat.le_max_left _ _
    · exact hlines (line_le_length code hc)
  | library =>
    obtain ⟨r, hr, rfl⟩ := h
    have hr := spans_of_mem_routines hr
    exact hlines (hr.header_le.trans hr.end_le)
  | variableOrder =>
    obtain ⟨b, hb, d, hd, rfl⟩ := h
    obtain ⟨c, hc, -⟩ | ⟨l, hl, he⟩ := exists_line_of_mem_varBlocksFrom hb hd
    · cases hc
    · rw [he] at hlines ⊢
      exact hlines (number_le_length hl)

theorem line_of_cites {i : Issue} {category : Category} {line : ℕ} (h : i.Cites category line) :
    i.line = max line 1 := by
  obtain ⟨code, severity, message, -, rfl⟩ := h
  rfl

end Cited

/-! ## Issues of searches -/

namespace Check

/-- The line of an offset is no line below the first, so an issue cites it as it is. -/
theorem line_error_lineOf (code : List Char) (rule message : String) (offset : ℕ) :
    (Issue.error rule message ((ofChars code).lineOf offset)).line = (ofChars code).lineOf offset :=
  Nat.max_eq_left (one_le_lineAt offset code)

/-- Each setting of TestPermissions has one issue, on the line on which it begins. -/
theorem forall₂_permissions (code : List Char) :
    List.Forall₂ (fun p i => IsFind disabledPermissions? (mask code) p ∧
        i.rule = Rule.forbiddenTestPermissions ∧ i.line = (ofChars code).lineOf p.1)
      (allMatches disabledPermissions? (mask code)) (permissions (Analysis.ofChars code)) := by
  refine List.forall₂_map_right_iff.2 (List.forall₂_same.2 fun p hp => ?_)
  exact ⟨isFind_of_mem_allMatches hp, rfl, line_error_lineOf code _ _ p.1⟩

/-- Each declaration with a name that is too long has one issue, on the line on which it begins and
with the name that it declares. -/
theorem forall₂_objectLength (code : List Char) :
    List.Forall₂ (fun p i => IsFind objectName? (mask code) p ∧ i.rule = Rule.objectNameLength ∧
        i.line = (ofChars code).lineOf p.1 ∧
        let name := bareName p.2
        let shown := String.ofList name
        let limit := maxObjectNameLength
        i.message = s!"Object name \"{shown}\" exceeds {limit} characters ({name.length} chars)")
      ((allMatches objectName? (mask code)).filter fun p =>
        maxObjectNameLength < (bareName p.2).length)
      (objectLength (Analysis.ofChars code)) := by
  have hissues : objectLength (Analysis.ofChars code) =
      ((allMatches objectName? (mask code)).filter fun p =>
        maxObjectNameLength < (bareName p.2).length).map fun p =>
        let name := bareName p.2
        let shown := String.ofList name
        Issue.error Rule.objectNameLength
          s!"Object name \"{shown}\" exceeds {maxObjectNameLength} characters ({name.length} chars)"
          ((ofChars code).lineOf p.1) := by
    rw [← List.filterMap_eq_map, List.filterMap_filter]
    simp only [decide_eq_true_eq]
    rfl
  rw [hissues]
  refine List.forall₂_map_right_iff.2 (List.forall₂_same.2 fun p hp => ?_)
  exact ⟨isFind_of_mem_allMatches (List.mem_of_mem_filter hp), rfl, line_error_lineOf code _ _ p.1,
    rfl⟩

end Check

/-! ## All numberings -/

/-- All ways of numbering the lines of a source agree. The line of a byte offset, which is the number
of lines that start up to it, is the number of the line that holds the byte, in both views. The
lines of the two views stand side by side, without loss, and a comment has the line of its opening
sign. So every issue cites a line of the source, or the first line of an empty one. The issues about
TestPermissions and about names of objects stand in one row with the finds of their searches: each
cites the line on which its find begins, and the one about a name shows the name that is found. -/
theorem lines_agree (code : String) :
    let raw := code.toList
    let s := Source.ofString code
    (∃ starts : List ℕ, views? raw = some (starts, s) ∧ starts.Pairwise (· < ·) ∧
        ∀ offset, s.lineOf offset = startsUpTo offset starts) ∧
      (∀ offset < byteLength raw,
        (∀ number, s.lineOf offset = number ↔ HoldsByte s.raw number offset) ∧
        (∀ number, s.lineOf offset = number ↔ HoldsByte s.masked number offset) ∧
        ∃ l ∈ s.lines, l.number = s.lineOf offset) ∧
      ((pieces s.raw).flatten = raw ∧ (pieces s.masked).flatten = s.masked ∧
        s.lines.map Line.raw = (pieces s.raw).map withoutEnd ∧
        s.lines.map Line.masked = (pieces s.masked).map withoutEnd ∧
        s.lines.map Line.number = List.range' 1 s.lines.length) ∧
      (s.comments = (tokens raw).zipIdx.filterMap fun p => p.1.comment?.map fun text =>
        ⟨s.lineOf (byteLength (((tokens raw).take p.2).flatMap Token.written)), text⟩) ∧
      (∀ i ∈ (validate code).issues, 1 ≤ i.line ∧ i.line ≤ max 1 s.lines.length) ∧
      List.Forall₂ (fun p i => IsFind Check.disabledPermissions? s.masked p ∧
          i.rule = Rule.forbiddenTestPermissions ∧ i.line = s.lineOf p.1)
        (allMatches Check.disabledPermissions? s.masked) (check .permissions code) ∧
      List.Forall₂ (fun p i => IsFind Check.objectName? s.masked p ∧
          i.rule = Rule.objectNameLength ∧ i.line = s.lineOf p.1 ∧
          let name := Check.bareName p.2
          let shown := String.ofList name
          let limit := Check.maxObjectNameLength
          i.message = s!"Object name \"{shown}\" exceeds {limit} characters ({name.length} chars)")
        ((allMatches Check.objectName? s.masked).filter fun p =>
          Check.maxObjectNameLength < (Check.bareName p.2).length)
        (check .objectLength code) := by
  intro raw s
  refine ⟨⟨_, views?_eq raw, pairwise_lineStarts raw, fun offset => lineAt_eq_startsUpTo offset raw⟩,
    fun offset h => ⟨fun number => (holdsByte_iff h number).symm, fun number => ?_, ?_⟩,
    ⟨flatten_pieces raw, flatten_pieces _, map_raw_lines raw, map_masked_lines raw,
      map_number_lines raw⟩, comments_eq raw, fun i hi => ?_, Check.forall₂_permissions raw,
    Check.forall₂_objectLength raw⟩
  · have hmasked : offset < byteLength (mask raw) := by rwa [byteLength_masked]
    show lineAt offset raw = number ↔ HoldsByte (mask raw) number offset
    rw [holdsByte_iff hmasked, lineAt_mask]
  · have hone : 1 ≤ (ofChars raw).lineOf offset := one_le_lineAt offset raw
    have hle : (ofChars raw).lineOf offset ≤ (ofChars raw).lines.length := lineOf_le_length raw h
    have hmem : (ofChars raw).lineOf offset ∈ (ofChars raw).lines.map Line.number := by
      rw [map_number_lines raw, List.mem_range'_1]
      omega
    exact List.mem_map.1 hmem
  · rw [validate, issues_results] at hi
    obtain ⟨category, -, hi⟩ := List.mem_flatMap.1 hi
    obtain ⟨line, hcited, hcites⟩ := cites_of_mem_issues hi
    rw [line_of_cites hcites]
    have hle : line ≤ max 1 s.lines.length := line_le_of_cited hcited
    exact ⟨Nat.le_max_right _ _, max_le hle (Nat.le_max_left _ _)⟩

end Acceptance
