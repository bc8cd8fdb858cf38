import Acceptance.Plan.Basic
import Acceptance.Text.Case
import Acceptance.Text.Search

/-!
# What a scenario asks for

The words of a scenario decide which local variables its test declares, and whether it needs
handlers for messages and questions. Words are found in any case and inside other words. The table
says in which order variables are declared.

Results:
* `localDeclarations_ne_nil`: a test always declares a variable.
-/

namespace Acceptance

/-- Variables that a word asks for. -/
structure DeclarationRule where
  /-- The word in lower case. -/
  word : String
  declarations : List String
  deriving Repr, DecidableEq

/-- Model of `DECLARATION_TABLE`: the words and their variables, in the order in which they are
declared. -/
def declarationRules : List DeclarationRule :=
  [⟨"requisition",
      ["RequisitionLine: Record \"Requisition Line\";",
        "RequisitionWkshName: Record \"Requisition Wksh. Name\";"]⟩,
    ⟨"item", ["Item: Record Item;"]⟩,
    ⟨"vendor", ["Vendor: Record Vendor;"]⟩,
    ⟨"worksheet", ["RequisitionWorksheet: TestPage \"Requisition Worksheet\";"]⟩]

/-- Model of `FALLBACK_DECLARATION`: what is declared if no word asks for anything. -/
def fallbackDeclaration : String := "TempBlob: Codeunit \"Temp Blob\";"

/-- Model of `HANDLER_TRIGGERS`: the words that ask for handlers. -/
def handlerWords : List String := ["warning", "confirmation", "dialog", "message", "prompt"]

/-- Whether a word occurs in a text, in any case. -/
def mentions (text word : String) : Bool :=
  Text.occursIn word.toList (Text.lowercase text.toList)

namespace Scenario

/-- Model of `local_declarations`: the local variables of the test of a scenario. AND steps do not
count. -/
def localDeclarations (s : Scenario) : List String :=
  match (declarationRules.filter fun r => mentions s.stepText r.word).flatMap (·.declarations) with
  | [] => [fallbackDeclaration]
  | d :: more => d :: more

/-- Model of `needs_handlers`: whether a step of the scenario asks for handlers. -/
def needsHandlers (s : Scenario) : Bool :=
  handlerWords.any (mentions s.fullText)

end Scenario

/-! ## First laws -/

theorem Scenario.localDeclarations_ne_nil (s : Scenario) : s.localDeclarations ≠ [] := by
  unfold localDeclarations
  split <;> simp

end Acceptance
