import Mathlib.Data.List.Basic
import Acceptance.Check.Validate
import Acceptance.Plan.Read
import Acceptance.Proofs.Codeunit.Cut
import Acceptance.Proofs.Markup.Spans
import Acceptance.Proofs.Source.Cut
import Acceptance.Proofs.Source.Views

/-!
# Every input is handled

Reading a plan, generating code and validating it cut texts at byte offsets and look entries up in
lists. Here each of them is written with all of that checked: a cut outside of a text or inside a
character, a lookup past the end of a list and bytes that are no text have no result. There always is
a result, and it is the one without checks.

The marks of emphasis are struck out of a title by the offsets that a reader of markup reports. That
does not depend on the reader as long as it reports offsets inside the title.

Main results:

* `Plan.exists_read?`: every text is a plan for every reader.
* `Plan.read?_emphasisSpans`: the plan that a text describes.
* `validate?_eq`, `check?_eq`: every source can be validated.
* `no_operation_fails`: all of them together.
-/

namespace Acceptance

open Text Markup

/-! ## Reading a plan -/

/-- The scenario in the block at a place, with the marks in its title struck out by their offsets. -/
def Block.scenario? (spans : List Char → List Span) (place : ℕ) (block : Block) :
    Option Scenario := do
  return Scenario.ofLines ((scenarioNumber? block.heading.token).getD (placeNumber place))
    (String.ofList (← withoutMarkup? spans block.heading.title)) block.lines

/-- The scenarios in some blocks, with every offset checked. -/
def Block.scenarios? (spans : List Char → List Span) : ℕ → List Block → Option (List Scenario)
  | _, [] => some []
  | place, block :: rest => do
    return (← block.scenario? spans place) :: (← scenarios? spans (place + 1) rest)

/-- The plan that a text describes, with every offset checked. -/
def Plan.read? (spans : List Char → List Span) (text : String) : Option Plan := do
  let lines := Text.lines text.toList
  return {
    metadata := Metadata.ofLines lines
    scenarios := ← Block.scenarios? spans 1 (Block.ofLines lines) }

/-- Whether a reader of markup reports offsets inside the text only. -/
def ReportsInside (spans : List Char → List Span) : Prop :=
  ∀ text : List Char, ∀ e ∈ spans text, e.last ≤ byteLength text

theorem Block.exists_scenarios? {spans : List Char → List Span} (h : ReportsInside spans)
    (place : ℕ) (blocks : List Block) : ∃ ss, scenarios? spans place blocks = some ss := by
  induction blocks generalizing place with
  | nil => exact ⟨[], rfl⟩
  | cons block rest ih =>
    obtain ⟨ss, hss⟩ := ih (place + 1)
    rw [scenarios?, scenario?, withoutMarkup?_eq (h block.heading.title), hss]
    exact ⟨_, rfl⟩

/-- Every text is a plan, whatever a reader reports inside its titles. -/
theorem Plan.exists_read? {spans : List Char → List Span} (h : ReportsInside spans)
    (text : String) : ∃ p, read? spans text = some p := by
  obtain ⟨ss, hss⟩ := Block.exists_scenarios? h 1 (Block.ofLines (Text.lines text.toList))
  rw [read?, hss]
  exact ⟨_, rfl⟩

theorem Block.scenarios?_emphasisSpans (place : ℕ) (blocks : List Block) :
    scenarios? emphasisSpans place blocks = some (scenarios place blocks) := by
  induction blocks generalizing place with
  | nil => rfl
  | cons block rest ih =>
    rw [scenarios?, scenario?, withoutMarkup?_emphasisSpans, ih]
    rfl

/-- The plan that a text describes. -/
theorem Plan.read?_emphasisSpans (text : String) :
    read? emphasisSpans text = some (read text) := by
  rw [read?, Block.scenarios?_emphasisSpans]
  rfl

/-! ## The order of declarations -/

namespace Check

/-- The issues about declarations behind ones of which `highest` is the latest listed type, with
every type looked up in the list. -/
def blockOrder? (highest : Option ℕ) : List Source.Declaration → Option (List Issue)
  | [] => some []
  | d :: rest =>
    match typeRank? d.typeName with
    | none => blockOrder? highest rest
    | some rank => do
      let _ ← typeOrder[rank]?
      match highest with
      | none => blockOrder? (some rank) rest
      | some h =>
        if rank < h then do
          let _ ← typeOrder[h]?
          return orderIssue h rank d :: (← blockOrder? highest rest)
        else blockOrder? (some rank) rest

/-- The issues about the order of declarations, with every type looked up in the list. -/
def variableOrder? (a : Analysis) : Option (List Issue) := do
  return (← a.varBlocks.mapM fun block => blockOrder? none block.declarations).flatten

theorem blockOrder?_eq {highest : Option ℕ} (h : ∀ rank ∈ highest, rank < typeOrder.length)
    (ds : List Source.Declaration) : blockOrder? highest ds = some (blockOrder highest ds) := by
  induction ds generalizing highest with
  | nil => rw [blockOrder?, blockOrder_nil]
  | cons d rest ih =>
    rw [blockOrder?, blockOrder]
    cases hrank : typeRank? d.typeName with
    | none => exact ih h
    | some rank =>
      have hlt := typeRank?_lt hrank
      have hnext : blockOrder? (some rank) rest = some (blockOrder (some rank) rest) :=
        ih fun k hk => Option.some.inj hk ▸ hlt
      simp only [List.getElem?_eq_getElem hlt, Option.bind_eq_bind, Option.bind_some]
      cases highest with
      | none => exact hnext
      | some later =>
        simp only [List.getElem?_eq_getElem (h later rfl), ih h, Option.bind_some]
        split_ifs
        · rfl
        · exact hnext

theorem variableOrder?_eq (a : Analysis) : variableOrder? a = some (variableOrder a) := by
  have hblock : (fun block : Source.VarBlock => blockOrder? none block.declarations) =
      fun block => pure (blockOrder none block.declarations) :=
    funext fun block => blockOrder?_eq (by rintro _ ⟨⟩) _
  rw [variableOrder?, hblock, List.mapM_pure]
  rfl

end Check

/-! ## Validation -/

namespace Analysis

/-- The analysis of a source text, with every offset checked. -/
def ofChars? (code : List Char) : Option Analysis := do
  let (_, source) ← Source.views? code
  return ⟨source, ← source.routines?, source.varBlocks⟩

/-- The issues of one category, with every type looked up in the list. -/
def issues? (a : Analysis) : Category → Option (List Issue)
  | .variableOrder => Check.variableOrder? a
  | category => return a.issues category

/-- The issues of all categories, with every type looked up in the list. -/
def results? (a : Analysis) : Option Results :=
  Category.all.foldlM (fun r category => do return r.insert category (← a.issues? category))
    Results.empty

theorem ofChars?_eq (code : List Char) : ofChars? code = some (ofChars code) := by
  rw [ofChars?, Source.views?_eq]
  show (do return ⟨Source.ofChars code, ← (Source.ofChars code).routines?, _⟩ : Option Analysis) = _
  rw [Source.routines?_ofChars]
  rfl

theorem issues?_eq (a : Analysis) (category : Category) :
    a.issues? category = some (a.issues category) := by
  cases category with
  | variableOrder => exact Check.variableOrder?_eq a
  | _ => rfl

theorem results?_eq (a : Analysis) : a.results? = some a.results := by
  rw [results?]
  simp only [issues?_eq]
  rfl

end Analysis

/-- The issues that the check of one category reports on a source, with everything checked. -/
def check? (category : Category) (code : String) : Option (List Issue) := do
  (← Analysis.ofChars? code.toList).issues? category

/-- The issues that all checks report on a source, with everything checked. -/
def validate? (code : String) : Option Results := do
  (← Analysis.ofChars? code.toList).results?

theorem check?_eq (category : Category) (code : String) :
    check? category code = some (check category code) := by
  rw [check?, Analysis.ofChars?_eq, Option.bind_eq_bind, Option.bind_some, Analysis.issues?_eq]
  rfl

theorem validate?_eq (code : String) : validate? code = some (validate code) := by
  rw [validate?, Analysis.ofChars?_eq, Option.bind_eq_bind, Option.bind_some, Analysis.results?_eq]
  rfl

/-! ## All of them together -/

/-- Whatever the text, the document and the options are, nothing that reading a plan, generating code,
validating it or a single check does can fail. -/
theorem no_operation_fails :
    (∀ spans : List Char → List Span, ReportsInside spans →
        ∀ text : String, ∃ p, Plan.read? spans text = some p) ∧
      (∀ text : String, Plan.read? emphasisSpans text = some (Plan.read text)) ∧
      (∀ (o : Options) (p : Plan), generate? o p = some (generate o p)) ∧
      (∀ code : String, validate? code = some (validate code)) ∧
      ∀ (category : Category) (code : String),
        check? category code = some (check category code) :=
  ⟨fun _ h => Plan.exists_read? h, Plan.read?_emphasisSpans, generate?_eq, validate?_eq, check?_eq⟩

/-- A title with strong and plain emphasis and characters of several bytes. -/
def emphasizedTitle : String := "**Größe** of _the_ *Menü*"

/-- What a reader of markup reports in the title is struck out. -/
theorem no_operation_fails_emphasizedTitle :
    emphasisSpans emphasizedTitle.toList = [⟨true, 0, 11⟩, ⟨false, 15, 20⟩, ⟨false, 21, 28⟩] ∧
      ReportsInside emphasisSpans ∧
      ∃ p, Plan.read? emphasisSpans ("## Scenario 1: " ++ emphasizedTitle) = some p :=
  have inside : ReportsInside emphasisSpans := fun _ _ h => last_le_of_mem_emphasisSpans h
  ⟨by decide, inside, no_operation_fails.1 emphasisSpans inside _⟩

end Acceptance
