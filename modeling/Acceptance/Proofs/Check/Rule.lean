import Mathlib.Data.List.Basic
import Acceptance.Check.Validate

/-!
# What the checks report

A check reports under the rules of its own category, each with the severity that the catalog gives
it, and cites lines of the parts of the source that it looks at. Since a code belongs to one rule,
the issues of a rule among those of a whole validation are the ones that the check of its category
reports.

Main results:

* `cites_of_mem_issues`: what an issue of a category looks like.
* `follows_of_mem_issues`: every issue follows a rule of the catalog.
* `filter_issues`, `filter_issues_eq`: the issues of one rule.
* `validate_follows_catalog`: what a whole validation records, and the catalog.
-/

namespace Acceptance

open Text Source

/-! ## Specification -/

/-- Whether the catalog has a rule with a code, a severity and a category. -/
def Rule.lists (code : String) (severity : Severity) (category : Category) : Bool :=
  Rule.catalog.any fun r =>
    r.code == code && r.category == category && r.severity == severity

/-- The categories of the catalog, in the order in which it comes to them. -/
def Rule.categories : List Category := (catalog.map category).eraseDups

theorem Rule.lists_iff {code : String} {severity : Severity} {category : Category} :
    Rule.lists code severity category = true ↔
      ∃ r ∈ Rule.catalog, r.code = code ∧ r.category = category ∧ r.severity = severity := by
  simp only [lists, List.any_eq_true, Bool.and_eq_true, beq_iff_eq, and_assoc]

/-- Whether an issue is reported under a rule of the category, with the severity of that rule. -/
def Issue.Follows (i : Issue) (category : Category) : Prop :=
  ∃ r ∈ Rule.catalog, r.code = i.rule ∧ r.category = category ∧ r.severity = i.severity

/-- Whether an issue is reported under a rule of the category and cites a line. -/
def Issue.Cites (i : Issue) (category : Category) (line : ℕ) : Prop :=
  ∃ code severity message, Rule.lists code severity category = true ∧
    i = Issue.of code severity message line

/-- The lines that the check of a category may cite. -/
def Analysis.Cited (a : Analysis) (category : Category) (line : ℕ) : Prop :=
  match category with
  | .naming => ∃ test ∈ a.tests, line = test.anchorLine
  | .comments => ∃ test ∈ a.tests, line = test.anchorLine ∨ ∃ c ∈ a.commentsOf test, line = c.line
  | .permissions =>
    ∃ p ∈ allMatches Check.disabledPermissions? a.source.masked, line = a.source.lineOf p.1
  | .commit => ∃ l ∈ a.source.lines, line = l.number
  | .objectLength => ∃ p ∈ allMatches Check.objectName? a.source.masked, line = a.source.lineOf p.1
  | .scenarioCount => line = 1 ∨ ∃ c ∈ a.source.comments, line = c.line
  | .library => ∃ r ∈ a.routines, line = r.headerLine
  | .variableOrder => ∃ b ∈ a.varBlocks, ∃ d ∈ b.declarations, line = d.line

namespace Check

/-- The issue about a tag that a test misses. -/
def missingIssue (test : Routine) (tag : Tag) : Issue :=
  let name := String.ofList test.name
  let shown := tag.shown
  Issue.error tag.rule s!"Test \"{name}\" missing {shown} comment" test.anchorLine

/-- The issue about a comment that may not stand in a test. -/
def forbiddenIssue (test : Routine) (c : Comment) : Issue :=
  let name := String.ofList test.name
  let start := Check.excerpt c
  Issue.error Rule.forbiddenComment s!"Forbidden comment in test \"{name}\": \"{start}\"" c.line

theorem testComments_eq (a : Analysis) (test : Routine) :
    testComments a test =
      ((tags.filter fun tag => !(a.commentsOf test).any tag.marks).map (missingIssue test)) ++
      ((a.commentsOf test).filter fun c => !isAllowed c).map (forbiddenIssue test) := rfl

/-! ## The checks -/

variable {a : Analysis} {i : Issue}

theorem cites_of_mem_testNaming {test : Routine} (h : i ∈ testNaming test) :
    i.Cites .naming test.anchorLine := by
  rw [testNaming, List.mem_append, List.mem_append, List.mem_ite_nil_left, List.mem_ite_nil_right,
    List.mem_ite_nil_right, List.mem_singleton, List.mem_singleton, List.mem_singleton] at h
  obtain (⟨-, rfl⟩ | ⟨-, rfl⟩) | ⟨-, rfl⟩ := h
  · exact ⟨_, _, _, by decide, rfl⟩
  · exact ⟨_, _, _, by decide, rfl⟩
  · exact ⟨_, _, _, by decide, rfl⟩

theorem cites_of_mem_testComments {test : Routine} (h : i ∈ testComments a test) :
    i.Cites .comments test.anchorLine ∨ ∃ c ∈ a.commentsOf test, i.Cites .comments c.line := by
  have htags : ∀ tag ∈ tags, Rule.lists tag.rule .error .comments = true := by decide
  rw [testComments_eq, List.mem_append, List.mem_map, List.mem_map] at h
  obtain ⟨tag, htag, rfl⟩ | ⟨c, hc, rfl⟩ := h
  · exact .inl ⟨_, _, _, htags tag (List.mem_of_mem_filter htag), rfl⟩
  · exact .inr ⟨c, List.mem_of_mem_filter hc, _, _, _, by decide, rfl⟩

theorem cites_of_mem_permissions (h : i ∈ permissions a) :
    ∃ p ∈ allMatches disabledPermissions? a.source.masked,
      i.Cites .permissions (a.source.lineOf p.1) := by
  obtain ⟨p, hp, rfl⟩ := List.mem_map.1 h
  exact ⟨p, hp, _, _, _, by decide, rfl⟩

theorem cites_of_mem_testCommits {lines : List Line} {test : Routine}
    (h : i ∈ testCommits lines test) :
    ∃ l ∈ lines, test.hasLine l.number = true ∧ i.Cites .commit l.number := by
  obtain ⟨l, hl, hcall⟩ := List.mem_flatMap.1 h
  obtain ⟨hmem, hline⟩ := List.mem_filter.1 hl
  obtain ⟨p, -, rfl⟩ := List.mem_map.1 hcall
  exact ⟨l, hmem, hline, _, _, _, by decide, rfl⟩

theorem cites_of_mem_objectLength (h : i ∈ objectLength a) :
    ∃ p ∈ allMatches objectName? a.source.masked, maxObjectNameLength < (bareName p.2).length ∧
      i.Cites .objectLength (a.source.lineOf p.1) := by
  obtain ⟨p, hp, hi⟩ := List.mem_filterMap.1 h
  obtain ⟨hlong, hi⟩ := Option.ite_none_right_eq_some.1 hi
  cases hi
  exact ⟨p, hp, hlong, _, _, _, by decide, rfl⟩

theorem mem_of_firstGap? {expected : ℕ} {entries : List Numbered} {gap : ℕ × Numbered}
    (h : firstGap? expected entries = some gap) : gap.2 ∈ entries := by
  induction entries generalizing expected with
  | nil => cases h
  | cons n rest ih =>
    rw [firstGap?] at h
    split_ifs at h
    · exact List.mem_cons_of_mem n (ih h)
    · cases h
      exact List.mem_cons_self

/-- A number comes from a comment on its line. -/
theorem exists_comment_of_mem_numbered {comments : List Comment} {n : Numbered}
    (h : n ∈ numbered (scenarioTags comments)) : ∃ c ∈ comments, n.line = c.line := by
  rw [numbered, List.mem_mergeSort, List.mem_filterMap] at h
  obtain ⟨tag, htag, hn⟩ := h
  obtain ⟨number, -, rfl⟩ := Option.map_eq_some_iff.1 hn
  obtain ⟨c, hc, hdigits⟩ := List.mem_filterMap.1 htag
  obtain ⟨digits, -, rfl⟩ := Option.map_eq_some_iff.1 hdigits
  exact ⟨c, hc, rfl⟩

theorem cites_of_mem_scenarioCount (h : i ∈ scenarioCount a) :
    i.Cites .scenarioCount 1 ∨ ∃ c ∈ a.source.comments, i.Cites .scenarioCount c.line := by
  rw [scenarioCount, List.mem_append, List.mem_ite_nil_left, List.mem_singleton,
    Option.mem_toList] at h
  obtain ⟨-, rfl⟩ | h := h
  · exact .inl ⟨_, _, _, by decide, rfl⟩
  · obtain ⟨gap, hgap, rfl⟩ := Option.map_eq_some_iff.1 h
    obtain ⟨c, hc, hline⟩ := exists_comment_of_mem_numbered (mem_of_firstGap? hgap)
    exact .inr ⟨c, hc, hline ▸ ⟨_, _, _, by decide, rfl⟩⟩

theorem cites_of_mem_library (h : i ∈ library a) :
    ∃ r ∈ a.routines, i.Cites .library r.headerLine := by
  rw [library, List.mem_ite_nil_right] at h
  obtain ⟨r, hr, rfl⟩ := List.mem_map.1 h.2
  exact ⟨r, List.mem_of_mem_filter hr, _, _, _, by decide, rfl⟩

theorem cites_of_mem_blockOrder {highest : Option ℕ} {declarations : List Declaration}
    (h : i ∈ blockOrder highest declarations) :
    ∃ d ∈ declarations, i.Cites .variableOrder d.line := by
  have later {d : Declaration} {rest : List Declaration}
      (h : ∃ e ∈ rest, i.Cites .variableOrder e.line) :
      ∃ e ∈ d :: rest, i.Cites .variableOrder e.line := by
    obtain ⟨e, he, hcites⟩ := h
    exact ⟨e, List.mem_cons_of_mem d he, hcites⟩
  fun_induction blockOrder highest declarations with
  | case1 => cases h
  | case2 highest d rest hrank ih => exact later (ih h)
  | case3 d rest rank hrank ih => exact later (ih h)
  | case4 d rest rank hrank top hlt ih =>
    rcases List.mem_cons.1 h with rfl | h
    · exact ⟨d, List.mem_cons_self, _, _, _, by decide, rfl⟩
    · exact later (ih h)
  | case5 d rest rank hrank top hlt ih => exact later (ih h)

end Check

/-- What an issue of a category looks like. -/
theorem cites_of_mem_issues {a : Analysis} {category : Category} {i : Issue}
    (h : i ∈ a.issues category) : ∃ line, a.Cited category line ∧ i.Cites category line := by
  cases category with
  | naming =>
    obtain ⟨test, ht, h⟩ := List.mem_flatMap.1 h
    exact ⟨_, ⟨test, ht, rfl⟩, Check.cites_of_mem_testNaming h⟩
  | comments =>
    obtain ⟨test, ht, h⟩ := List.mem_flatMap.1 h
    obtain h | ⟨c, hc, h⟩ := Check.cites_of_mem_testComments h
    · exact ⟨_, ⟨test, ht, .inl rfl⟩, h⟩
    · exact ⟨_, ⟨test, ht, .inr ⟨c, hc, rfl⟩⟩, h⟩
  | permissions =>
    obtain ⟨p, hp, h⟩ := Check.cites_of_mem_permissions h
    exact ⟨_, ⟨p, hp, rfl⟩, h⟩
  | commit =>
    obtain ⟨test, -, h⟩ := List.mem_flatMap.1 h
    obtain ⟨l, hl, -, h⟩ := Check.cites_of_mem_testCommits h
    exact ⟨_, ⟨l, hl, rfl⟩, h⟩
  | objectLength =>
    obtain ⟨p, hp, -, h⟩ := Check.cites_of_mem_objectLength h
    exact ⟨_, ⟨p, hp, rfl⟩, h⟩
  | scenarioCount =>
    obtain h | ⟨c, hc, h⟩ := Check.cites_of_mem_scenarioCount h
    · exact ⟨_, .inl rfl, h⟩
    · exact ⟨_, .inr ⟨c, hc, rfl⟩, h⟩
  | library =>
    obtain ⟨r, hr, h⟩ := Check.cites_of_mem_library h
    exact ⟨_, ⟨r, hr, rfl⟩, h⟩
  | variableOrder =>
    obtain ⟨b, hb, h⟩ := List.mem_flatMap.1 h
    obtain ⟨d, hd, h⟩ := Check.cites_of_mem_blockOrder h
    exact ⟨_, ⟨b, hb, d, hd, rfl⟩, h⟩

theorem follows_of_mem_issues {a : Analysis} {category : Category} {i : Issue}
    (h : i ∈ a.issues category) : i.Follows category := by
  obtain ⟨-, -, code, severity, message, hlist, rfl⟩ := cites_of_mem_issues h
  exact Rule.lists_iff.1 hlist

/-! ## The issues of one rule -/

/-- Where something is said of the members with a property only, what is said and those members
correspond. -/
theorem forall₂_filterMap {α β : Type} {R : β → α → Prop} {f : α → Option β} {p : α → Bool}
    {l : List α} (hp : ∀ a ∈ l, p a = (f a).isSome) (hf : ∀ a ∈ l, ∀ b, f a = some b → R b a) :
    List.Forall₂ R (l.filterMap f) (l.filter p) := by
  induction l with
  | nil => exact .nil
  | cons a l ih =>
    have ih := ih (fun b hb => hp b (List.mem_cons_of_mem a hb))
      fun b hb => hf b (List.mem_cons_of_mem a hb)
    have ha := hp a List.mem_cons_self
    cases hfa : f a with
    | none =>
      rw [hfa] at ha
      rwa [List.filterMap_cons_none hfa, List.filter_cons_of_neg (by simp [ha])]
    | some b =>
      rw [hfa] at ha
      rw [List.filterMap_cons_some hfa, List.filter_cons_of_pos ha]
      exact .cons (hf a List.mem_cons_self b hfa) ih

theorem Rule.eq_of_code_eq {r q : Rule} (hr : r ∈ catalog) (hq : q ∈ catalog)
    (h : r.code = q.code) : r = q :=
  Option.some.inj ((lookup?_eq_some_iff.2 ⟨hr, h⟩).symm.trans (lookup?_eq_some_iff.2 ⟨hq, rfl⟩))

theorem issues_results (a : Analysis) : a.results.issues = Category.all.flatMap a.issues := by
  rw [Results.issues, Analysis.entries_results, List.flatMap_map]

/-- The issues of a rule are those that the check of its category reports. -/
theorem filter_issues {code : String} {severity : Severity} {category : Category}
    (h : Rule.lists code severity category = true) (a : Analysis) :
    a.results.issues.filter (fun i => i.rule == code) =
      (a.issues category).filter fun i => i.rule == code := by
  obtain ⟨r, hr, rfl, rfl, -⟩ := Rule.lists_iff.1 h
  have hother {categories : List Category} (h : r.category ∉ categories) :
      categories.flatMap (fun c => (a.issues c).filter fun i => i.rule == r.code) = [] := by
    refine List.flatMap_eq_nil_iff.2 fun category hc => List.filter_eq_nil_iff.2 fun i hi he => ?_
    obtain ⟨q, hq, hcode, rfl, -⟩ := follows_of_mem_issues hi
    obtain rfl : q = r := Rule.eq_of_code_eq hq hr (hcode.trans (beq_iff_eq.1 he))
    exact h hc
  have hmem : ∀ category : Category, category ∈ Category.all := by
    intro category
    cases category <;> decide
  have hnodup : Category.all.Nodup := by decide
  obtain ⟨before, after, hall⟩ := List.append_of_mem (hmem r.category)
  rw [hall, List.nodup_append, List.nodup_cons] at hnodup
  obtain ⟨-, ⟨hafter, -⟩, hbefore⟩ := hnodup
  have hbefore : r.category ∉ before := fun h => hbefore _ h _ List.mem_cons_self rfl
  rw [issues_results, List.filter_flatMap, hall, List.flatMap_append, List.flatMap_cons,
    hother hbefore, hother hafter, List.nil_append, List.append_nil]

/-- Where a category has one rule, the issues of the rule are all that its check reports. -/
theorem filter_issues_eq {code : String} {severity : Severity} {category : Category}
    (h : Rule.lists code severity category = true)
    (hall : ∀ r ∈ Rule.catalog, r.category = category → r.code = code) (a : Analysis) :
    a.results.issues.filter (fun i => i.rule == code) = a.issues category := by
  rw [filter_issues h a]
  refine List.filter_eq_self.2 fun i hi => ?_
  obtain ⟨r, hr, hcode, hcategory, -⟩ := follows_of_mem_issues hi
  rw [← hcode, hall r hr hcategory]
  exact beq_self_eq_true _

/-! ## Validation and the catalog -/

/-- The rule of an issue can be looked up. -/
theorem Issue.Follows.lookup? {i : Issue} {category : Category} (h : i.Follows category) :
    ∃ r, Rule.lookup? i.rule = some r ∧ r.category = category ∧ r.severity = i.severity := by
  obtain ⟨r, hr, hcode, hcategory, hseverity⟩ := h
  exact ⟨r, Rule.lookup?_eq_some_iff.2 ⟨hr, hcode⟩, hcategory, hseverity⟩

/-- Validation records the issues of all eight categories, in the order of the catalog, and for each
of them what its check alone reports. The rule of every recorded issue is in the catalog, under the
category that the issue is recorded under and with the severity of the issue. -/
theorem validate_follows_catalog (code : String) :
    (validate code).entries =
        Rule.categories.map (fun category => (category, check category code)) ∧
      (Rule.categories.length = 8 ∧ Rule.categories.Nodup ∧
        ∀ category : Category, category ∈ Rule.categories) ∧
      ∀ entry ∈ (validate code).entries, ∀ i ∈ entry.2, ∃ r,
        Rule.lookup? i.rule = some r ∧ r.category = entry.1 ∧ r.severity = i.severity := by
  have hall : Rule.categories = Category.all := by decide
  have hentries : (validate code).entries =
      Category.all.map fun category => (category, check category code) :=
    Analysis.entries_results _
  rw [hall, hentries]
  refine ⟨rfl, ⟨rfl, by decide, fun category => ?_⟩, fun entry hentry i hi => ?_⟩
  · cases category <;> decide
  · obtain ⟨category, -, rfl⟩ := List.mem_map.1 hentry
    exact (follows_of_mem_issues hi).lookup?

/-- A test with a wrong name and a forbidden comment, and variables out of order. -/
def disorderedSource : String :=
  "[Test]\nprocedure Post()\nvar\n    C: Codeunit C;\n    R: Record R;\nbegin\n    // later\nend;"

/-- Errors and warnings are recorded under several categories, each with its rule. -/
theorem validate_follows_catalog_disorderedSource :
    (validate disorderedSource).entries.map (fun entry => entry.2.map Issue.severity) =
        [[.error], [.error, .error, .error, .error, .error], [], [], [], [.error], [], [.warning]] ∧
      ∀ entry ∈ (validate disorderedSource).entries, ∀ i ∈ entry.2, ∃ r,
        Rule.lookup? i.rule = some r ∧ r.category = entry.1 ∧ r.severity = i.severity :=
  ⟨by decide +kernel, (validate_follows_catalog disorderedSource).2.2⟩

end Acceptance
