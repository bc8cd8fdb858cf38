import Mathlib.Data.List.Basic
import Acceptance.Check.Comments
import Acceptance.Check.Naming
import Acceptance.Proofs.Codeunit.Outline

/-!
# The checks of one generated test

The name of a generated test is wrong in one way only: a number above 9999 does not fit its prefix.
Its comments are wrong in one way only: without a step that is given, the comment for it is missing.
The title and the steps themselves are of no account.

Main results:

* `testNaming_procedureName`: the issues about a name that is made from a number and a title.
* `testComments_eq`: the issues about the comments of a test.
-/

namespace Acceptance

open Text Source CodeLine Check

/-! ## Contents of comments -/

theorem trimEnd_stepRemark (g : Group) (step : String) :
    trimEnd (stepRemark g step).toList =
      '[' :: (g.tag.toList ++ ']' :: trimEnd (' ' :: step.toList)) := by
  rw [toList_stepRemark, ← List.cons_append, trimEnd_append_cons (by decide)]
  rfl

theorem trimEnd_scenarioRemark (id : UInt32) (title : String) :
    trimEnd (scenarioRemark id title).toList =
      "[SCENARIO ".toList ++ (Nat.toDigits 10 id.toNat ++ ']' :: trimEnd (' ' :: title.toList)) := by
  rw [toList_scenarioRemark, ← List.append_assoc, trimEnd_append_cons (by decide),
    List.append_assoc]

/-- The tag of a scenario or of a group. -/
def tagOf : Option Group → Tag
  | none => ⟨"[SCENARIO".toList, Rule.missingScenario, "// [SCENARIO X]"⟩
  | some .given => ⟨"[GIVEN]".toList, Rule.missingGiven, "// [GIVEN]"⟩
  | some .when => ⟨"[WHEN]".toList, Rule.missingWhen, "// [WHEN]"⟩
  | some .expected => ⟨"[THEN]".toList, Rule.missingThen, "// [THEN]"⟩

theorem tags_eq :
    tags = [tagOf none, tagOf (some .given), tagOf (some .when), tagOf (some .expected)] := rfl

/-- Whether a content starts with the tag of a scenario or group and with no other. -/
def HasTag (kind : Option Group) (content : List Char) : Prop :=
  ∀ k, (tagOf k).opening.isPrefixOf content = (k == kind)

theorem hasTag_step (g : Group) (step : String) :
    HasTag (some g) (trimEnd (stepRemark g step).toList) := by
  intro k
  rw [trimEnd_stepRemark]
  cases k with
  | none => cases g <;> rfl
  | some k => cases g <;> cases k <;> rfl

theorem hasTag_scenario (id : UInt32) (title : String) :
    HasTag none (trimEnd (scenarioRemark id title).toList) := by
  intro k
  rw [trimEnd_scenarioRemark]
  cases k with
  | none => rfl
  | some k => cases k <;> rfl

theorem hasTag_when : HasTag (some .when) (trimEnd TestProcedure.whenRemark.toList) := by
  have h : TestProcedure.whenRemark = stepRemark .when "TODO: Implement action using TestPage" := by
    decide
  exact h ▸ hasTag_step .when _

theorem hasTag_then : HasTag (some .expected) (trimEnd TestProcedure.thenRemark.toList) := by
  have h : TestProcedure.thenRemark =
      stepRemark .expected "TODO: Implement assertions using TestPage" := by
    decide
  exact h ▸ hasTag_step .expected _

namespace TestProcedure

variable {t : TestProcedure}

/-- Every comment of a test has a tag. -/
theorem hasTag_of_mem_remarks {content : String} (h : content ∈ t.remarks) :
    ∃ kind, HasTag kind (trimEnd content.toList) := by
  have steps : ∀ (g : Group) (steps : List String), content ∈ steps.map (stepRemark g) →
      ∃ kind, HasTag kind (trimEnd content.toList) := by
    intro g steps hm
    obtain ⟨step, -, rfl⟩ := List.mem_map.1 hm
    exact ⟨_, hasTag_step g step⟩
  simp only [remarks, List.mem_cons, List.mem_append, List.not_mem_nil, or_false] at h
  rcases h with rfl | (h | h) | rfl | h | rfl
  · exact ⟨_, hasTag_scenario _ _⟩
  · exact steps _ _ h
  · exact steps _ _ h
  · exact ⟨_, hasTag_when⟩
  · exact steps _ _ h
  · exact ⟨_, hasTag_then⟩

/-- All tags occur in a test, but the one of a group without steps and placeholder. -/
theorem any_opening (t : TestProcedure) (kind : Option Group) :
    (t.remarks.any fun content => (tagOf kind).opening.isPrefixOf (trimEnd content.toList)) =
      !(kind == some .given && t.given.isEmpty) := by
  have steps : ∀ (g : Group) (steps : List String),
      ((steps.map (stepRemark g)).any fun content =>
        (tagOf kind).opening.isPrefixOf (trimEnd content.toList)) =
          (kind == some g && !steps.isEmpty) := by
    intro g steps
    induction steps with
    | nil => exact (Bool.and_false _).symm
    | cons step steps ih =>
      rw [List.map_cons, List.any_cons, ih, hasTag_step g step kind]
      cases kind == some g <;> rfl
  unfold remarks
  rw [List.any_cons, List.any_append, List.any_append, List.any_cons, List.any_append, steps, steps,
    steps, List.any_cons, List.any_nil, hasTag_scenario, hasTag_when, hasTag_then]
  cases kind with
  | none => rfl
  | some g =>
    cases g <;> cases t.given.isEmpty <;> cases t.when.isEmpty <;> cases t.expected.isEmpty <;> rfl

end TestProcedure

/-! ## The comments of one test -/

/-- The issue about a test without a comment for its preconditions. -/
def missingGivenIssue (name : String) (line : ℕ) : Issue :=
  let shown := "// [GIVEN]"
  Issue.error Rule.missingGiven s!"Test \"{name}\" missing {shown} comment" line

/-- The issues about comments look at their contents only, if all of them have tags. -/
theorem testComments_eq {a : Analysis} {r : Routine} {t : TestProcedure}
    (h : (a.commentsOf r).map Comment.content =
      t.remarks.map fun content => trimEnd content.toList) :
    testComments a r =
      if t.given = [] then [missingGivenIssue (String.ofList r.name) r.anchorLine] else [] := by
  have marks : ∀ kind, (a.commentsOf r).any (tagOf kind).marks =
      !(kind == some .given && t.given.isEmpty) := by
    intro kind
    have : (a.commentsOf r).any (tagOf kind).marks =
        ((a.commentsOf r).map Comment.content).any (tagOf kind).opening.isPrefixOf := by
      rw [List.any_map]
      rfl
    rw [this, h, List.any_map, ← t.any_opening kind]
    rfl
  have allowed : (a.commentsOf r).filter (fun c => !isAllowed c) = [] := by
    refine List.filter_eq_nil_iff.2 fun c hc => ?_
    have hm : c.content ∈ t.remarks.map fun content => trimEnd content.toList :=
      h ▸ List.mem_map_of_mem hc
    obtain ⟨content, hr, he⟩ := List.mem_map.1 hm
    obtain ⟨kind, hk⟩ := TestProcedure.hasTag_of_mem_remarks hr
    have ht : isTagged c = true := by
      refine List.any_eq_true.2 ⟨tagOf kind, ?_, ?_⟩
      · rw [tags_eq]
        cases kind with
        | none => exact List.mem_cons_self
        | some g => cases g <;> simp
      · rw [Tag.marks, ← he, hk kind]
        exact beq_self_eq_true kind
    simp [isAllowed_of_isTagged ht]
  have missing : tags.filter (fun tag => !(a.commentsOf r).any tag.marks) =
      if t.given = [] then [tagOf (some .given)] else [] := by
    simp only [tags_eq, List.filter_cons, List.filter_nil, marks]
    cases t.given with
    | nil => rfl
    | cons step steps => rfl
  unfold testComments
  simp only [allowed, missing, List.map_nil, List.append_nil]
  split_ifs
  · rfl
  · rfl

/-! ## The name of one test -/

/-- The greatest number with four digits. -/
def maxNumber : UInt32 := 9999

/-- The issue about a name that does not start with four digits. -/
def prefixIssue (name : String) (line : ℕ) : Issue :=
  Issue.error Rule.testNamingPrefix
    s!"Test procedure \"{name}\" must start with T#### prefix (e.g., T0001_)" line

theorem length_toDigits_le_four (id : UInt32) :
    (Nat.toDigits 10 id.toNat).length ≤ 4 ↔ id ≤ maxNumber := by
  rw [Nat.length_toDigits_le_iff (by decide) (by decide), UInt32.le_iff_toNat_le]
  have : maxNumber.toNat = 9999 := rfl
  omega

/-- A name starts with four digits exactly if its number has no more. -/
theorem hasNumber_procedureName (id : UInt32) (title : List Char) :
    hasNumber (Naming.procedureName id title) = decide (id ≤ maxNumber) := by
  have hlen := length_padded 4 id.toNat
  have hdigit : ∀ c ∈ padded 4 id.toNat, isDigit c = true := fun c hc =>
    isDigit_of_isAsciiDigit (isAsciiDigit_of_isDigit (mem_padded hc))
  rw [Bool.eq_iff_iff, decide_eq_true_iff, ← length_toDigits_le_four, hasNumber_iff]
  unfold Naming.procedureName
  constructor
  · rintro ⟨a, b, c, d, rest, he, -⟩
    -- a fifth digit would stand where the low line is
    by_contra hl
    have hfive : 4 < (padded 4 id.toNat).length := by omega
    have hat : ('T' :: padded 4 id.toNat ++
        '_' :: Naming.cut Naming.maxTitle (Naming.pascalTitle title))[5]? = some '_' := by
      rw [he]
      rfl
    rw [List.cons_append, List.getElem?_cons_succ, List.getElem?_append_left hfive] at hat
    exact absurd (hdigit '_' (List.mem_of_getElem? hat)) (by decide)
  · intro hl
    have hfour : (padded 4 id.toNat).length = 4 := by omega
    match hp : padded 4 id.toNat, hfour with
    | [a, b, c, d], _ =>
      rw [hp] at hdigit
      exact ⟨a, b, c, d, _, rfl, hdigit a (by simp), hdigit b (by simp), hdigit c (by simp),
        hdigit d (by simp)⟩

theorem length_procedureName_le (id : UInt32) (title : List Char) :
    (Naming.procedureName id title).length ≤ maxTestNameLength :=
  (Naming.length_procedureName_le_ninetyTwo id title).trans (by decide)

/-- No quotation marks are taken off a plain name. -/
theorem trimWhile_isQuote {name : List Char} (h : IsPlain name) :
    name.any isQuote = false ∧ trimWhile isQuote name = name := by
  have hq : ∀ c ∈ name, isQuote c = false := by
    intro c hc
    have h1 : c ≠ '"' := ne_of_plain (h c hc) rfl
    have h2 : c ≠ '\'' := ne_of_plain (h c hc) rfl
    simp [isQuote, h1, h2]
  have hd : ∀ s : List Char, (∀ c ∈ s, isQuote c = false) → s.dropWhile isQuote = s := by
    intro s hs
    cases s with
    | nil => rfl
    | cons c s => rw [List.dropWhile_cons, if_neg (by simp [hs c List.mem_cons_self])]
  constructor
  · exact List.any_eq_false.2 fun c hc => by simp [hq c hc]
  · rw [trimWhile, dropEndWhile, hd name hq, hd _ fun c hc => hq c (List.mem_reverse.1 hc),
      List.reverse_reverse]

theorem testNaming_procedureName {r : Routine} {id : UInt32} {title : List Char}
    (h : r.name = Naming.procedureName id title) :
    testNaming r =
      if id ≤ maxNumber then [] else [prefixIssue (String.ofList r.name) r.anchorLine] := by
  have hp : IsPlain r.name := h ▸ Naming.isPlain_procedureName
  have hl : ¬ r.name.length > maxTestNameLength := by
    rw [h]
    exact Nat.not_lt.2 (length_procedureName_le id title)
  obtain ⟨hq, ht⟩ := trimWhile_isQuote hp
  have hn : hasNumber r.name = decide (id ≤ maxNumber) := h ▸ hasNumber_procedureName id title
  unfold testNaming
  simp only [hq, ht, hn, if_neg hl, Bool.false_eq_true, if_false, List.append_nil,
    decide_eq_true_eq]
  rfl

end Acceptance
