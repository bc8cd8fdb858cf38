import Mathlib.Data.List.Basic
import Mathlib.Data.Option.Basic
import Acceptance.Proofs.Check.Rule
import Acceptance.Proofs.Source.Position
import Acceptance.Proofs.Text.Search
import Acceptance.Proofs.Text.Trim

/-!
# Object names in quotation marks

The name of an object is measured without quotation marks of both kinds. A declared name in double
quotes holds no double quote itself, but it may hold apostrophes, and these are left out wherever they
stand. So a name with apostrophes is measured too short, and if it is reported then without them.

Main results:

* `declaresQuoted_of_mem`: what stands at the declaration of an object with a name in quotes.
* `nameIssue?_eq_iff`: an issue tells its name.
* `isJudgedInFull_iff`: a name in quotes is judged by all its characters exactly if it holds no
  apostrophe or is short.
-/

namespace Acceptance

open Text Source

namespace Check

/-! ## Specification -/

/-- The issue about a name of an object that is declared on a line, if it is too long. -/
def nameIssue? (name : List Char) (line : ℕ) : Option Issue :=
  let length := name.length
  let shown := String.ofList name
  if length > maxObjectNameLength then
    some (Issue.error Rule.objectNameLength
      s!"Object name \"{shown}\" exceeds {maxObjectNameLength} characters ({length} chars)" line)
  else none

/-- Whether behind `start` an object is declared that has a name in quotation marks. -/
def DeclaresQuoted (masked start content : List Char) : Prop :=
  ∃ keyword blanks number more rest,
    masked = start ++ (keyword ++ (blanks ++ (number ++ (more ++ '"' :: (content ++ '"' :: rest))))) ∧
      isEdge start.getLast? = true ∧ keyword.map foldLetter ∈ objectKeywords ∧
      (blanks ≠ [] ∧ ∀ c ∈ blanks, isBlank c = true) ∧
      (number ≠ [] ∧ ∀ c ∈ number, isDigit c = true) ∧
      (more ≠ [] ∧ ∀ c ∈ more, isBlank c = true) ∧ '"' ∉ content ∧ '\n' ∉ content

/-- What is reported about a name in quotation marks is what its characters between them, without
blanks at their ends, ask for. -/
def IsJudgedInFull (content : List Char) (line : ℕ) (reported : Option Issue) : Prop :=
  reported = nameIssue? (trim content) line

/-! ## Declarations -/

theorem quotedName?_eq_some_iff {s written rest : List Char} :
    quotedName? s = some (written, rest) ↔ ∃ content, s = '"' :: (content ++ '"' :: rest) ∧
      written = '"' :: (content ++ ['"']) ∧ '"' ∉ content ∧ '\n' ∉ content := by
  have hother (c : Char) : (c != '"' && c != '\n') = true ↔ c ≠ '"' ∧ c ≠ '\n' := by
    rw [Bool.and_eq_true, bne_iff_ne, bne_iff_ne]
  constructor
  · intro h
    unfold quotedName? at h
    split at h
    · next behind =>
      split at h
      · next tail hdrop =>
        cases h
        have hall : ∀ c ∈ behind.takeWhile (fun c => c != '"' && c != '\n'), c ≠ '"' ∧ c ≠ '\n' :=
          fun c hc => (hother c).1 (List.all_eq_true.1 List.all_takeWhile c hc)
        refine ⟨_, ?_, rfl, fun hc => (hall _ hc).1 rfl, fun hc => (hall _ hc).2 rfl⟩
        rw [← hdrop, List.takeWhile_append_dropWhile]
      · cases h
    · cases h
  · rintro ⟨content, rfl, rfl, hquote, hfeed⟩
    have hall : ∀ c ∈ content, (c != '"' && c != '\n') = true := fun c hc =>
      (hother c).2 ⟨fun h => hquote (h ▸ hc), fun h => hfeed (h ▸ hc)⟩
    have htake : (content ++ '"' :: rest).takeWhile (fun c => c != '"' && c != '\n') = content := by
      rw [List.takeWhile_append_of_pos hall, List.takeWhile_cons_of_neg (by decide),
        List.append_nil]
    have hdrop : (content ++ '"' :: rest).dropWhile (fun c => c != '"' && c != '\n') =
        '"' :: rest := by
      rw [List.dropWhile_append_of_pos hall, List.dropWhile_cons_of_neg (by decide)]
    simp only [quotedName?, hdrop, htake, List.cons_append]

/-- What stands at the declaration of an object with a name in quotes. -/
theorem declaresQuoted_of_mem {masked content : List Char} {offset : ℕ}
    (h : (offset, '"' :: (content ++ ['"'])) ∈ allMatches objectName? masked) :
    ∃ start, offset = byteLength start ∧ DeclaresQuoted masked start content := by
  obtain ⟨start, s, rfl, -, hoffset, rest, hfind⟩ := exists_of_mem_allMatches h
  simp only [objectName?, Option.bind_eq_bind, Option.bind_eq_some_iff, Option.guard_eq_some',
    Prod.exists] at hfind
  obtain ⟨-, hedge, word, s₁, hword, s₂, hblanks, number, s₃, hnumber, s₄, hmore, hname⟩ := hfind
  obtain ⟨hmem, hkeyword⟩ := anyKeyword?_mem hword
  obtain ⟨keyword, rfl, rfl⟩ := keyword?_eq_some_iff.1 hkeyword
  obtain ⟨blanks, rfl, hne, hblank, -⟩ := blanks?_eq_some_iff_append.1 hblanks
  obtain ⟨rfl, hnne, hdigits, -⟩ := run?_eq_some_iff.1 hnumber
  obtain ⟨more, rfl, hmne, hmblank, -⟩ := blanks?_eq_some_iff_append.1 hmore
  obtain ⟨other, rfl, hwritten, hquote, hfeed⟩ : ∃ other, s₄ = '"' :: (other ++ '"' :: rest) ∧
      '"' :: (content ++ ['"']) = '"' :: (other ++ ['"']) ∧ '"' ∉ other ∧ '\n' ∉ other := by
    cases hq : quotedName? s₄ with
    | some found =>
      rw [hq] at hname
      cases hname
      exact quotedName?_eq_some_iff.1 hq
    | none =>
      -- a name without quotes does not start with one
      rw [hq] at hname
      have := mem_run? hname '"' List.mem_cons_self
      cases this
  obtain rfl : content = other := List.append_cancel_right (List.cons.inj hwritten).2
  exact ⟨start, hoffset, keyword, blanks, number, more, rest, rfl, hedge, hmem, ⟨hne, hblank⟩,
    ⟨hnne, hdigits⟩, ⟨hmne, hmblank⟩, hquote, hfeed⟩

theorem bareName_quoted {content : List Char} (h : '"' ∉ content) :
    bareName ('"' :: (content ++ ['"'])) = trim (content.filter fun c => c != '\'') := by
  have hfilter : content.filter (fun c => !(c == '"' || c == '\'')) =
      content.filter fun c => c != '\'' := by
    refine List.filter_congr fun c hc => ?_
    have hne : (c == '"') = false := beq_eq_false_iff_ne.2 fun he => h (he ▸ hc)
    rw [hne]
    rfl
  rw [bareName, List.filter_cons_of_neg (by decide), List.filter_append, hfilter]
  exact congrArg trim (List.append_nil _)

/-! ## Issues -/

theorem nameIssue?_eq_none_iff {name : List Char} {line : ℕ} :
    nameIssue? name line = none ↔ name.length ≤ maxObjectNameLength := by
  unfold nameIssue?
  extract_lets length shown
  split_ifs with hlong
  · exact iff_of_false not_false (Nat.not_le.2 hlong)
  · exact iff_of_true rfl (Nat.le_of_not_lt hlong)

/-- An issue is on the line of its declaration and shows the name in quotation marks. -/
theorem shows_of_nameIssue? {name : List Char} {line : ℕ} {i : Issue}
    (h : nameIssue? name line = some i) : i.line = max line 1 ∧
      ∃ back, i.message.toList = "Object name \"".toList ++ (name ++ '"' :: back) := by
  obtain ⟨-, hi⟩ := Option.ite_none_right_eq_some.1 h
  cases hi
  have hquote : (toString "\" exceeds ").toList = '"' :: " exceeds ".toList := rfl
  refine ⟨rfl, ?_⟩
  simp only [Issue.error, Issue.of, String.toList_append, List.append_assoc, hquote,
    List.cons_append]
  exact ⟨_, congrArg _ (congrArg (· ++ _) String.toList_ofList)⟩

/-- Names without quotation marks that have the same issue are the same or both short. -/
theorem nameIssue?_eq_iff {name other : List Char} (hname : '"' ∉ name) (hother : '"' ∉ other)
    (line : ℕ) : nameIssue? name line = nameIssue? other line ↔
      name = other ∨ (name.length ≤ maxObjectNameLength ∧ other.length ≤ maxObjectNameLength) := by
  constructor
  · intro h
    cases hissue : nameIssue? name line with
    | none =>
      exact .inr ⟨nameIssue?_eq_none_iff.1 hissue, nameIssue?_eq_none_iff.1 (h ▸ hissue)⟩
    | some i =>
      obtain ⟨-, back, hback⟩ := shows_of_nameIssue? hissue
      obtain ⟨-, more, hmore⟩ := shows_of_nameIssue? (h ▸ hissue)
      have hfirst {shown back : List Char} (hshown : '"' ∉ shown) :
          (shown ++ '"' :: back).takeWhile (fun c => c != '"') = shown := by
        have hall : ∀ c ∈ shown, (c != '"') = true := by
          intro c hc
          exact bne_iff_ne.2 fun he => hshown (he ▸ hc)
        rw [List.takeWhile_append_of_pos hall, List.takeWhile_cons_of_neg (by decide),
          List.append_nil]
      have hnames := List.append_cancel_left (hback.symm.trans hmore)
      exact .inl ((hfirst hname).symm.trans ((congrArg _ hnames).trans (hfirst hother)))
  · rintro (rfl | ⟨hshort, hother⟩)
    · rfl
    · rw [nameIssue?_eq_none_iff.2 hshort, nameIssue?_eq_none_iff.2 hother]

/-- Without apostrophes a name in quotation marks is the same or shorter. -/
theorem isJudgedInFull_bareName_iff {content : List Char} (h : '"' ∉ content) (line : ℕ) :
    IsJudgedInFull content line (nameIssue? (bareName ('"' :: (content ++ ['"']))) line) ↔
      '\'' ∉ content ∨ (trim content).length ≤ maxObjectNameLength := by
  have hmem {s : List Char} (hs : '"' ∉ s) : '"' ∉ trim s := fun hc =>
    hs ((trimWhile_sublist isBlank s).mem hc)
  have hfiltered : '"' ∉ content.filter fun c => c != '\'' := fun hc =>
    h (List.mem_of_mem_filter hc)
  rw [IsJudgedInFull, bareName_quoted h, nameIssue?_eq_iff (hmem hfiltered) (hmem h)]
  by_cases hc : '\'' ∈ content
  · have hlt : (trim (content.filter fun c => c != '\'')).length < (trim content).length := by
      refine length_trimWhile_filter_lt (fun c hblank => ?_) hc rfl
      rw [bne_iff_ne]
      rintro rfl
      revert hblank
      decide
    have hne : trim (content.filter fun c => c != '\'') ≠ trim content := fun he =>
      absurd hlt (by rw [he]; exact Nat.lt_irrefl _)
    constructor
    · exact fun h => .inr (h.resolve_left hne).2
    · exact fun h => .inr ⟨hlt.le.trans (h.resolve_left (not_not.2 hc)), h.resolve_left (not_not.2 hc)⟩
  · have hself : (content.filter fun c => c != '\'') = content :=
      List.filter_eq_self.2 fun c hmem => bne_iff_ne.2 fun he => hc (he ▸ hmem)
    exact iff_of_true (.inl (congrArg trim hself)) (.inl hc)

end Check

/-! ## A source -/

/-- The issues about names of objects are those of the declarations, one after the other. A name in
quotation marks is measured and shown without its apostrophes, and an issue about it is on the line of
the keyword of its object. Such a name is judged by all characters between the marks, without blanks
at their ends, exactly if there is no apostrophe among them or there are at most 30 of them. -/
theorem isJudgedInFull_iff (code : String) :
    let s := Source.ofString code
    let declared := allMatches Check.objectName? s.masked
    (validate code).issues.filter (fun i => i.rule == Rule.objectNameLength) =
        declared.filterMap (fun p => Check.nameIssue? (Check.bareName p.2) (s.lineOf p.1)) ∧
      ∀ p ∈ declared, ∀ content, p.2 = '"' :: (content ++ ['"']) →
        let reported := Check.nameIssue? (Check.bareName p.2) (s.lineOf p.1)
        (∃ start, p.1 = byteLength start ∧ Check.DeclaresQuoted s.masked start content) ∧
          Check.bareName p.2 = trim (content.filter fun c => c != '\'') ∧
          (∀ i ∈ reported, i.line = s.lineOf p.1) ∧
          (Check.IsJudgedInFull content (s.lineOf p.1) reported ↔
            '\'' ∉ content ∨ (trim content).length ≤ Check.maxObjectNameLength) := by
  intro s declared
  refine ⟨?_, ?_⟩
  · exact filter_issues_eq (by decide +kernel : Rule.lists _ .error .objectLength = true)
      (by decide +kernel) (Analysis.ofString code)
  · rintro ⟨offset, written⟩ hmem content rfl reported
    obtain ⟨start, hoffset, hdeclares⟩ := Check.declaresQuoted_of_mem hmem
    obtain ⟨-, -, -, -, -, -, -, -, -, -, -, hquote, -⟩ := id hdeclares
    refine ⟨⟨start, hoffset, hdeclares⟩, Check.bareName_quoted hquote, fun i hi => ?_,
      Check.isJudgedInFull_bareName_iff hquote _⟩
    rw [(Check.shows_of_nameIssue? hi).1]
    exact Nat.max_eq_left (one_le_lineAt offset code.toList)

/-- A codeunit with a name of 31 characters, one of them an apostrophe. -/
def apostropheSource : String := "codeunit 50100 \"Customer's Overdue Balance Test\"\n\x7b\n\x7d\n"

theorem not_isJudgedInFull_apostropheSource :
    let s := Source.ofString apostropheSource
    let content := "Customer's Overdue Balance Test".toList
    let p := (0, '"' :: (content ++ ['"']))
    allMatches Check.objectName? s.masked = [p] ∧ (trim content).length = 31 ∧
      ¬ Check.IsJudgedInFull content (s.lineOf p.1)
        (Check.nameIssue? (Check.bareName p.2) (s.lineOf p.1)) ∧
      (validate apostropheSource).issues.filter (fun i => i.rule == Rule.objectNameLength) = [] := by
  intro s content p
  refine ⟨by decide +kernel, by decide +kernel, ?_, by decide +kernel⟩
  show ¬ _ = _
  decide +kernel

/-- Two declarations. The first name has 31 characters, one of them of two bytes, and opens a comment
if it is not read as a name. The second one has 30 characters, one of them an apostrophe, and blanks
around it. -/
def twoObjects : String :=
  "codeunit 50100 \"Übersicht /* offener Rechnungen\"\npage 50101 \" Vendor's Overdue Balance Tests \""

theorem isJudgedInFull_iff_twoObjects :
    let s := Source.ofString twoObjects
    ((validate twoObjects).issues.filter fun i => i.rule == Rule.objectNameLength).map
        (fun i => (i.line, i.message)) =
      [(1, "Object name \"Übersicht /* offener Rechnungen\" exceeds 30 characters (31 chars)")] ∧
      ∀ p ∈ allMatches Check.objectName? s.masked, ∃ content, p.2 = '"' :: (content ++ ['"']) ∧
        Check.IsJudgedInFull content (s.lineOf p.1)
          (Check.nameIssue? (Check.bareName p.2) (s.lineOf p.1)) := by
  intro s
  have hdeclared : allMatches Check.objectName? s.masked =
      [(0, "\"Übersicht /* offener Rechnungen\"".toList),
        (50, "\" Vendor's Overdue Balance Tests \"".toList)] := by decide +kernel
  refine ⟨by decide +kernel, fun p hp => ?_⟩
  have h := (isJudgedInFull_iff twoObjects).2 p hp
  rw [hdeclared, List.mem_cons, List.mem_singleton] at hp
  rcases hp with rfl | rfl
  · have hname : "\"Übersicht /* offener Rechnungen\"".toList =
        '"' :: ("Übersicht /* offener Rechnungen".toList ++ ['"']) := by decide +kernel
    exact ⟨_, hname, (h _ hname).2.2.2.2 (.inl (by decide +kernel))⟩
  · have hname : "\" Vendor's Overdue Balance Tests \"".toList =
        '"' :: (" Vendor's Overdue Balance Tests ".toList ++ ['"']) := by decide +kernel
    exact ⟨_, hname, (h _ hname).2.2.2.2 (.inr (by decide +kernel))⟩

end Acceptance
