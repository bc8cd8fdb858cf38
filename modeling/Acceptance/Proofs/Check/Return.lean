import Mathlib.Data.List.Forall2
import Acceptance.Proofs.Check.Rule
import Acceptance.Proofs.Source.Found
import Acceptance.Proofs.Source.Padding

/-!
# Checks and line ends

A source whose line ends get a carriage return has the same routines and blocks of variables on the
same lines, and the searches of its masked view find the same there. Its comments have the carriage
returns in their text, which no check looks at; only the message about a forbidden comment shows a
part of that text, and there the carriage returns of a comment over several lines are seen.

Main results:

* `ignoresLineEnds_objectName?` and others: the searches of the whole source.
* `Check.forall₂_testComments`: the issues about the comments of a test.
* `forall₂_entries_withReturns`: all issues of a source with other line ends.
-/

namespace Acceptance

open Text Source

/-! ## Specification -/

/-- Whether a comment of a source stands in signs and spans lines. -/
structure Source.Comment.Spans (s : List Char) (c : Comment) : Prop where
  token : ∃ closed, Token.blockComment c.text closed ∈ tokens s
  feed : '\n' ∈ c.text

/-- Whether an issue of a source is reported in the same way with carriage returns: with the same
rule, severity and line, and with the same message unless it is about a forbidden comment that spans
lines. -/
structure Issue.Agrees (a : Analysis) (i j : Issue) : Prop where
  rule : j.rule = i.rule
  severity : j.severity = i.severity
  line : j.line = i.line
  message : j.message = i.message ∨
    ∃ test ∈ a.tests, ∃ c ∈ a.commentsOf test, c.Spans a.source.raw ∧
      i = Check.forbiddenIssue test c ∧ j = Check.forbiddenIssue test c.withReturns

theorem Issue.Agrees.refl (a : Analysis) (i : Issue) : i.Agrees a i := ⟨rfl, rfl, rfl, .inl rfl⟩

namespace Check

/-! ## Searches of the whole source -/

/-- No keyword starts at a blank. -/
theorem keyword?_of_isBlank {word : List Char} (hw : word ≠ [] ∧ word.all Char.isAlpha = true)
    {c : Char} (hc : isBlank c = true) (s : List Char) : keyword? word (c :: s) = none := by
  obtain ⟨hne, hletters⟩ := hw
  obtain ⟨k, word, rfl⟩ := List.exists_cons_of_ne_nil hne
  refine if_neg fun he => ?_
  have hfold : isFoldedLetter c = true := by
    rw [isFoldedLetter, beq_iff_eq.1 he]
    exact List.all_eq_true.1 hletters k List.mem_cons_self
  exact absurd (hc.symm.trans (not_isBlank_of_isFoldedLetter hfold)) (by decide)

theorem ignoresLineEnds_disabledPermissions? : IgnoresLineEnds disabledPermissions? where
  blank before c s hc := by
    rw [disabledPermissions?, keyword?_of_isBlank (by decide) hc]
    cases isEdge before <;> rfl
  widened before c s t _ h :=
    rel_bind (rel_guard _) fun _ _ _ =>
    rel_bind (rel_keyword?_cons h (by decide)) fun _ _ hr =>
    rel_bind (hr.skipBlanks.char? (by decide)) fun _ _ hr =>
    rel_bind (hr.skipBlanks.keyword? (by decide)) fun r u hr => by
      rw [hr.isEdge_eq]
      exact rel_bind (rel_guard _) fun _ _ _ => .some ⟨rfl, hr⟩

theorem ignoresLineEnds_libraryVariable? : IgnoresLineEnds libraryVariable? where
  blank before c s hc := by
    have hL : c ≠ 'L' := by
      rintro rfl
      exact absurd hc (by decide)
    have hnone : after? "Library".toList (c :: s) = none :=
      (after?_cons 'L' _ c s).trans (if_neg hL)
    rw [libraryVariable?, hnone]
    cases isEdge before <;> rfl
  widened before c s t _ h :=
    rel_bind (rel_guard _) fun _ _ _ =>
    rel_bind (rel_after?_cons h (by decide)) fun _ _ hr =>
    rel_bind (hr.run? (by decide)) fun _ _ hr =>
    rel_bind (hr.2.skipBlanks.char? (by decide)) fun _ _ hr => .some ⟨rfl, hr⟩

theorem ignoresLineEnds_libraryObject? : IgnoresLineEnds libraryObject? where
  blank before c s hc := by
    rw [libraryObject?, keyword?_of_isBlank (by decide) hc]
    cases isEdge before <;> rfl
  widened before c s t _ h :=
    rel_bind (rel_guard _) fun _ _ _ =>
    rel_bind (rel_keyword?_cons h (by decide)) fun _ _ hr =>
    rel_bind hr.blanks? fun _ _ hr =>
    rel_bind (hr.run? (by decide)) fun _ _ hr =>
    rel_bind hr.2.blanks? fun r u hr => by
      have hquote : Beside s t ((char? '"' r).getD r) ((char? '"' u).getD u) := by
        have hchar := hr.char? (k := '"') (by decide)
        generalize char? '"' r = x at hchar
        generalize char? '"' u = y at hchar
        cases hchar with
        | none => exact hr
        | some hchar => exact hchar
      exact rel_bind (hquote.keyword? (by decide)) fun _ _ hr => .some ⟨rfl, hr⟩

/-- A name in quotes ends before the line feed, whatever is added there. -/
theorem quote_widened {s t : List Char} (h : Widened s t) :
    let p (c : Char) := c != '"' && c != '\n'
    (∃ r u, s.dropWhile p = '"' :: r ∧ t.dropWhile p = '"' :: u ∧
      t.takeWhile p = s.takeWhile p ∧ Widened r u) ∨
    (∀ r, s.dropWhile p ≠ '"' :: r) ∧ ∀ u, t.dropWhile p ≠ '"' :: u := by
  intro p
  induction h with
  | nil => exact .inr ⟨by rintro r ⟨⟩, by rintro u ⟨⟩⟩
  | @char c s t hc h ih =>
    rw [List.dropWhile_cons, List.dropWhile_cons, List.takeWhile_cons, List.takeWhile_cons]
    split_ifs with hp
    · rcases ih with ⟨r, u, hr, hu, htake, hw⟩ | ih
      · exact .inl ⟨r, u, hr, hu, congrArg _ htake, hw⟩
      · exact .inr ih
    · obtain rfl : c = '"' := by simpa [p, hc] using hp
      exact .inl ⟨s, t, rfl, rfl, rfl, h⟩
  | @feed pad s t hpad h ih =>
    have hskip : pads.all p = true := by decide
    rw [List.dropWhile_cons_of_neg (by decide),
      List.dropWhile_cons_of_pos (List.all_eq_true.1 hskip pad hpad),
      List.dropWhile_cons_of_neg (by decide)]
    exact .inr ⟨by rintro r ⟨⟩, by rintro u ⟨⟩⟩

theorem quotedName?_of_ne {c : Char} (hc : c ≠ '"') (s : List Char) : quotedName? (c :: s) = none := by
  rw [quotedName?]
  rintro rest ⟨⟩
  exact hc rfl

theorem rel_quotedName? {s t r u : List Char} (h : Beside s t r u) :
    Option.Rel (FindsBeside s t) (quotedName? r) (quotedName? u) := by
  obtain ⟨hl, hr, hwide⟩ := h
  cases hwide with
  | nil => exact .none
  | @char c v w hc hw =>
    by_cases hq : c = '"'
    · subst hq
      rw [quotedName?, quotedName?]
      rcases quote_widened hw with ⟨a, b, ha, hb, htake, hab⟩ | ⟨ha, hb⟩
      · rw [ha, hb, htake]
        have hsuffix {c : Char} {p : Char → Bool} {x y : List Char} (he : x.dropWhile p = c :: y) :
            y <:+ x :=
          (List.suffix_cons c y).trans (he ▸ List.dropWhile_suffix p)
        exact .some ⟨rfl, (hsuffix ha).trans ((List.suffix_cons _ v).trans hl),
          (hsuffix hb).trans ((List.suffix_cons _ w).trans hr), hab⟩
      · split
        · next tail he => exact absurd he (ha tail)
        · exact .none
    · rw [quotedName?_of_ne hq, quotedName?_of_ne hq]
      exact .none
  | @feed pad v w hpad hw =>
    have hne : pad ≠ '"' := ne_of_mem_pads (List.mem_cons_of_mem _ hpad) (by decide)
    rw [quotedName?_of_ne (by decide), quotedName?_of_ne hne]
    exact .none

theorem ignoresLineEnds_objectName? : IgnoresLineEnds objectName? where
  blank before c s hc := by
    have hwords : ∀ word ∈ objectKeywords, word ≠ [] ∧ word.all Char.isAlpha = true := by decide
    have hnone : anyKeyword? objectKeywords (c :: s) = none := by
      cases hany : anyKeyword? objectKeywords (c :: s) with
      | none => rfl
      | some p =>
        obtain ⟨hm, hk⟩ := anyKeyword?_mem hany
        rw [keyword?_of_isBlank (hwords _ hm) hc] at hk
        cases hk
    rw [objectName?, hnone]
    cases isEdge before <;> rfl
  widened before c s t _ h := by
    have hwords : ∀ word ∈ objectKeywords, word ≠ [] ∧ word.any isBlank = false := by decide
    refine rel_bind (rel_guard _) fun _ _ _ =>
      rel_bind (rel_anyKeyword? fun word hw =>
        rel_keyword?_cons h (hwords word hw)) fun _ _ hr =>
      rel_bind hr.2.blanks? fun _ _ hr =>
      rel_bind (hr.run? (by decide)) fun _ _ hr =>
      rel_bind hr.2.blanks? fun _ _ hr => ?_
    exact rel_orElse (rel_quotedName? hr) (hr.run? (by decide))

/-- The finds of a search of the masked view, each with its line. -/
def places {α : Type} (find? : Option Char → List Char → Option (α × List Char)) (src : Source) :
    List (ℕ × α) :=
  (allMatches find? src.masked).map fun p => (src.lineOf p.1, p.2)

/-- The lines of finds can be counted in the masked view. -/
theorem places_ofChars {α : Type} (find? : Option Char → List Char → Option (α × List Char))
    (s : List Char) : places find? (ofChars s) = found find? (mask s) := by
  refine List.map_congr_left fun p _ => ?_
  rw [lineAt_mask]
  rfl

theorem places_withReturns {α : Type} {find? : Option Char → List Char → Option (α × List Char)}
    (hf : IgnoresLineEnds find?) (s : List Char) :
    places find? (ofChars (withReturns s)) = places find? (ofChars s) := by
  rw [places_ofChars, places_ofChars, found_widened hf (padded_mask s).widened]

theorem permissions_eq (a : Analysis) :
    permissions a = (places disabledPermissions? a.source).map fun p =>
      Issue.error Rule.forbiddenTestPermissions
        "TestPermissions = Disabled is forbidden. Use SetTestPermissions() procedure instead."
        p.1 := by
  rw [places, List.map_map]
  rfl

/-- The issue about the name of an object, if it is too long. -/
def objectIssue? (p : ℕ × List Char) : Option Issue :=
  let name := bareName p.2
  let length := name.length
  if length > maxObjectNameLength then
    let shown := String.ofList name
    some (Issue.error Rule.objectNameLength
      s!"Object name \"{shown}\" exceeds {maxObjectNameLength} characters ({length} chars)" p.1)
  else none

theorem objectLength_eq (a : Analysis) :
    objectLength a = (places objectName? a.source).filterMap objectIssue? := by
  rw [places, List.filterMap_map]
  rfl

theorem usesLibrary_withReturns (s : List Char) :
    usesLibrary (mask (withReturns s)) = usesLibrary (mask s) := by
  have hempty {find? : Option Char → List Char → Option (Unit × List Char)}
      (hf : IgnoresLineEnds find?) :
      (allMatches find? (mask (withReturns s))).isEmpty = (allMatches find? (mask s)).isEmpty := by
    have := congrArg List.isEmpty (places_withReturns hf s)
    rwa [places, places, List.isEmpty_map, List.isEmpty_map] at this
  rw [usesLibrary, usesLibrary, hempty ignoresLineEnds_libraryVariable?,
    hempty ignoresLineEnds_libraryObject?]

/-! ## Lines -/

theorem commitCall?_append_space (before : Option Char) (s : List Char) :
    commitCall? before (s ++ [' ']) =
      (commitCall? before s).map fun p => (p.1, p.2 ++ [' ']) := by
  rw [commitCall?, commitCall?, keyword?_append_space (by decide)]
  cases isEdge before with
  | false => rfl
  | true =>
    cases keyword? "commit".toList s with
    | none => rfl
    | some rest =>
      show (char? '(' (skipBlanks (rest ++ [' ']))).bind _ =
        ((char? '(' (skipBlanks rest)).bind _).map _
      rw [map_skipBlanks rfl (char?_append_space (by decide)) rest]
      cases char? '(' (skipBlanks rest) <;> rfl

theorem testCommits_padded {ls ks : List Line} (h : List.Forall₂ Line.IsPaddedAs ls ks)
    (test : Routine) : testCommits ks test = testCommits ls test := by
  have hcons (l : Line) (ls : List Line) : testCommits (l :: ls) test =
      (if test.hasLine l.number then
        (allMatches commitCall? l.masked).map fun _ => commitIssue test l.number
      else []) ++ testCommits ls test := by
    rw [testCommits, testCommits, List.filter_cons]
    split_ifs <;> rfl
  induction h with
  | nil => rfl
  | @cons l k ls ks hl _ ih =>
    have hcalls : allMatches commitCall? k.masked = allMatches commitCall? l.masked := by
      rcases hl.eq_or with rfl | ⟨rfl, -⟩
      · rfl
      · refine allMatches_append_space (fun before => ?_) commitCall?_append_space _
        cases before with
        | none => rfl
        | some c => rw [commitCall?]; cases isEdge (some c) <;> rfl
    rw [hcons, hcons, ih, hcalls, hl.number]

/-! ## Comments -/

theorem content_withReturns (c : Comment) : c.withReturns.content = withReturns c.content :=
  skipBlanks_withReturns c.text

/-- A text without blanks is looked for in the same way. -/
theorem isPrefixOf_withReturns {start : List Char} (hs : start.any isBlank = false)
    (s : List Char) : start.isPrefixOf (withReturns s) = start.isPrefixOf s := by
  rw [← isSome_after?, ← isSome_after?]
  exact (rel_isSome ((Beside.refl (widened_withReturns s)).after? hs)).symm

theorem marks_withReturns {tag : Tag} (h : tag ∈ tags) (c : Comment) :
    tag.marks c.withReturns = tag.marks c := by
  have hopening : ∀ tag ∈ tags, tag.opening.any isBlank = false := by decide
  rw [Tag.marks, content_withReturns, isPrefixOf_withReturns (hopening tag h)]
  rfl

theorem isTagged_withReturns (c : Comment) : isTagged c.withReturns = isTagged c := by
  rw [isTagged, isTagged, Bool.eq_iff_iff, List.any_eq_true, List.any_eq_true]
  exact exists_congr fun tag => and_congr_right fun h => by rw [marks_withReturns h]

theorem isAllowed_withReturns (c : Comment) : isAllowed c.withReturns = isAllowed c := by
  rw [isAllowed, isAllowed, content_withReturns, allBlank_withReturns, isTagged_withReturns]

theorem scenarioTag?_withReturns (s : List Char) :
    scenarioTag? (withReturns s) = scenarioTag? s := by
  have hrel : Option.Rel Eq (scenarioTag? s) (scenarioTag? (withReturns s)) :=
    rel_bind ((Beside.refl (widened_withReturns s)).after? (by decide)) fun _ _ hr =>
    rel_bind hr.blanks? fun _ _ hr =>
    rel_bind (hr.run? (by decide)) fun _ _ hr =>
    rel_bind (hr.2.char? (by decide)) fun _ _ _ => .some hr.1
  generalize scenarioTag? s = x at hrel
  generalize scenarioTag? (withReturns s) = y at hrel
  cases hrel with
  | none => rfl
  | some h => rw [h]

theorem scenarioTags_withReturns (comments : List Comment) :
    scenarioTags (comments.map Comment.withReturns) = scenarioTags comments := by
  rw [scenarioTags, scenarioTags, List.filterMap_map]
  refine congrArg (List.filterMap · comments) (funext fun c => ?_)
  show (scenarioTag? c.withReturns.content).map _ = (scenarioTag? c.content).map _
  rw [content_withReturns, scenarioTag?_withReturns]
  rfl

/-- A comment over several lines stands in signs. -/
theorem spans_of_mem {s : List Char} {c : Comment} (hc : c ∈ (ofChars s).comments)
    (hn : '\n' ∈ c.text) : c.Spans s := by
  have htoken : ∀ (ts : List Token) (line : ℕ), c ∈ commentsFrom line ts →
      ∃ t ∈ ts, t.comment? = some c.text := by
    intro ts
    induction ts with
    | nil => rintro line ⟨⟩
    | cons t ts ih =>
      intro line hc
      rw [commentsFrom_cons] at hc
      rcases List.mem_append.1 hc with hc | hc
      · obtain ⟨text, htext, rfl⟩ := Option.map_eq_some_iff.1 (Option.mem_toList.1 hc)
        exact ⟨t, List.mem_cons_self, htext⟩
      · obtain ⟨u, hu, htext⟩ := ih _ hc
        exact ⟨u, List.mem_cons_of_mem _ hu, htext⟩
  obtain ⟨t, ht, htext⟩ := htoken (tokens s) 1 hc
  refine ⟨?_, hn⟩
  cases t with
  | code d => cases htext
  | name written => cases htext
  | literal body closed => cases htext
  | blockComment body closed => exact ⟨closed, Option.some.inj htext ▸ ht⟩
  | lineComment body =>
    exact absurd hn (not_mem_comment? (not_mem_of_lineComment (reads_tokens s) body ht) htext)

section Tests

variable {a b : Analysis} {test : Routine} (ht : test ∈ a.tests)
  (hc : b.commentsOf test = (a.commentsOf test).map Comment.withReturns)
  (hs : ∀ c ∈ a.commentsOf test, '\n' ∈ c.text → c.Spans a.source.raw)

include ht hc hs

/-- The issues about the comments of a test, with and without carriage returns. -/
theorem forall₂_testComments :
    List.Forall₂ (Issue.Agrees a) (testComments a test) (testComments b test) := by
  have hmissing : (tags.filter fun tag => !(b.commentsOf test).any tag.marks) =
      tags.filter fun tag => !(a.commentsOf test).any tag.marks := by
    refine List.filter_congr fun tag htag => congrArg _ ?_
    rw [hc, List.any_map]
    exact congrArg (List.any _) (funext fun c => marks_withReturns htag c)
  have hforbidden : ((b.commentsOf test).filter fun c => !isAllowed c) =
      ((a.commentsOf test).filter fun c => !isAllowed c).map Comment.withReturns := by
    rw [hc, List.filter_map]
    exact congrArg _ (List.filter_congr fun c _ => congrArg _ (isAllowed_withReturns c))
  have hagrees : ∀ c ∈ a.commentsOf test,
      (forbiddenIssue test c).Agrees a (forbiddenIssue test c.withReturns) := by
    intro c hm
    refine ⟨rfl, rfl, rfl, ?_⟩
    by_cases hn : '\n' ∈ c.text
    · exact .inr ⟨test, ht, c, hm, hs c hm hn, rfl, rfl⟩
    · have he : c.withReturns = c := by
        rw [Comment.withReturns, withReturns_eq_self hn]
      exact .inl (by rw [he])
  rw [testComments_eq, testComments_eq, hmissing, hforbidden, List.map_map]
  refine List.rel_append (List.forall₂_same.2 fun i _ => .refl a i) ?_
  rw [List.forall₂_map_left_iff, List.forall₂_map_right_iff]
  exact List.forall₂_same.2 fun c hm => hagrees c (List.mem_of_mem_filter hm)

end Tests

end Check

/-! ## All checks -/

section Parts

variable {s : List Char} (h : '\r' ∉ s)

theorem commentsOf_withReturns (s : List Char) (r : Routine) :
    (Analysis.ofChars (withReturns s)).commentsOf r =
      ((Analysis.ofChars s).commentsOf r).map Comment.withReturns := by
  show (ofChars (withReturns s)).comments.filter _ = ((ofChars s).comments.filter _).map _
  rw [comments_withReturns, List.filter_map]
  rfl

include h

theorem tests_withReturns : (Analysis.ofChars (withReturns s)).tests = (Analysis.ofChars s).tests :=
  congrArg (List.filter _) (routines_withReturns h)

/-- All checks but the one of comments report the same. -/
theorem issues_withReturns {category : Category} (hc : category ≠ .comments) :
    (Analysis.ofChars (withReturns s)).issues category = (Analysis.ofChars s).issues category := by
  cases category with
  | comments => exact absurd rfl hc
  | naming => exact congrArg (List.flatMap _) (tests_withReturns h)
  | permissions =>
    show Check.permissions _ = Check.permissions _
    rw [Check.permissions_eq, Check.permissions_eq]
    exact congrArg _ (Check.places_withReturns Check.ignoresLineEnds_disabledPermissions? s)
  | commit =>
    show (Analysis.ofChars (withReturns s)).tests.flatMap _ = _
    rw [tests_withReturns h]
    exact List.flatMap_congr fun test _ =>
      Check.testCommits_padded (lines_ofChars_withReturns h) test
  | objectLength =>
    show Check.objectLength _ = Check.objectLength _
    rw [Check.objectLength_eq, Check.objectLength_eq]
    exact congrArg _ (Check.places_withReturns Check.ignoresLineEnds_objectName? s)
  | scenarioCount =>
    show Check.scenarioCount _ = Check.scenarioCount _
    have htags : Check.scenarioTags (Analysis.ofChars (withReturns s)).source.comments =
        Check.scenarioTags (Analysis.ofChars s).source.comments := by
      show Check.scenarioTags (ofChars (withReturns s)).comments = _
      rw [comments_withReturns, Check.scenarioTags_withReturns]
      rfl
    rw [Check.scenarioCount, Check.scenarioCount, tests_withReturns h, htags]
  | library =>
    show Check.library _ = Check.library _
    have huses : Check.usesLibrary (Analysis.ofChars (withReturns s)).source.masked =
        Check.usesLibrary (Analysis.ofChars s).source.masked := Check.usesLibrary_withReturns s
    have hroutines : (Analysis.ofChars (withReturns s)).routines = (Analysis.ofChars s).routines :=
      routines_withReturns h
    rw [Check.library, Check.library, huses, hroutines]
    simp only [commentsOf_withReturns, List.isEmpty_map]
  | variableOrder => exact congrArg (List.flatMap _) (varBlocks_withReturns h)

theorem forall₂_comments :
    List.Forall₂ (Issue.Agrees (Analysis.ofChars s)) (Check.comments (Analysis.ofChars s))
      (Check.comments (Analysis.ofChars (withReturns s))) := by
  rw [Check.comments, Check.comments, tests_withReturns h]
  have htests : List.Forall₂ (fun t u => t = u ∧ t ∈ (Analysis.ofChars s).tests)
      (Analysis.ofChars s).tests (Analysis.ofChars s).tests :=
    List.forall₂_same.2 fun t ht => ⟨rfl, ht⟩
  refine List.rel_flatMap htests ?_
  rintro t _ ⟨rfl, ht⟩
  exact Check.forall₂_testComments ht (commentsOf_withReturns s t) fun c hc hn =>
    Check.spans_of_mem (List.mem_of_mem_filter hc) hn

end Parts

/-- Category by category and in order, a source without carriage returns and the same source with one
before each line feed have the same issues: the same rules, severities and lines, and the same
messages except about forbidden comments that span lines. -/
theorem forall₂_entries_withReturns {code : String} (h : '\r' ∉ code.toList) :
    List.Forall₂ (fun e e' => e'.1 = e.1 ∧
        List.Forall₂ (Issue.Agrees (Analysis.ofString code)) e.2 e'.2)
      (validate code).entries
      (validate (String.ofList (withReturns code.toList))).entries := by
  rw [validate, validate, Analysis.entries_results, Analysis.entries_results,
    List.forall₂_map_left_iff, List.forall₂_map_right_iff]
  refine List.forall₂_same.2 fun category _ => ⟨rfl, ?_⟩
  have hcode : Analysis.ofString (String.ofList (withReturns code.toList)) =
      Analysis.ofChars (withReturns code.toList) := by
    rw [Analysis.ofString, String.toList_ofList]
  show List.Forall₂ _ ((Analysis.ofChars code.toList).issues category)
    ((Analysis.ofString (String.ofList (withReturns code.toList))).issues category)
  rw [hcode]
  by_cases hc : category = .comments
  · subst hc
    exact forall₂_comments h
  · rw [issues_withReturns h hc]
    exact List.forall₂_same.2 fun i _ => .refl _ i

/-- A test with a call of Commit behind a comment over two lines: the call is reported on its line in
both sources, and the message about the comment shows the carriage return. -/
theorem forall₂_entries_spanning :
    let code := "[Test]\nprocedure A()\nbegin\n  /* one\n  two */\n  Commit();\nend;\n"
    let returned := String.ofList (withReturns code.toList)
    '\r' ∉ code.toList ∧
      List.Forall₂ (fun e e' => e'.1 = e.1 ∧
          List.Forall₂ (Issue.Agrees (Analysis.ofString code)) e.2 e'.2)
        (validate code).entries (validate returned).entries ∧
      (check .commit returned).map Issue.line = [6] ∧
      (check .comments returned).map Issue.message ≠ (check .comments code).map Issue.message := by
  intro code returned
  have h : '\r' ∉ code.toList := by decide +kernel
  exact ⟨h, forall₂_entries_withReturns h, by decide +kernel, by decide +kernel⟩

end Acceptance
