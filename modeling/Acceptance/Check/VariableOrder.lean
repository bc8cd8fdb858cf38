import Acceptance.Check.Analysis
import Acceptance.Check.Report

/-!
# Order of declarations

Inside a block of variables the declarations of listed types come in the order of the list. A
declaration is out of order if one before it in the block has a later type; the message names the
latest type so far. Types that are not listed do not matter.

Results:
* `typeRank?_lt`: a rank is a place in the list.
* `blockOrder_nil`: a block without declarations has no issue.
-/

namespace Acceptance.Check

/-- Model of `TYPE_ORDER`: the listed types in their order. -/
def typeOrder : List String :=
  ["Record", "Report", "Codeunit", "XmlPort", "Page", "Query", "Notification", "BigText",
   "DateFormula", "RecordId", "RecordRef", "FieldRef", "FilterPageBuilder"]

/-- Whether two texts are equal up to the case of ASCII letters. -/
def sameIgnoringCase (s t : List Char) : Bool :=
  s.map Char.toLower == t.map Char.toLower

/-- Model of `type_rank`: the place of a type in the list, without regard to case. -/
def typeRank? (typeName : List Char) : Option Nat :=
  typeOrder.findIdx? fun known => sameIgnoringCase known.toList typeName

/-- The name of the type at a place of the list. -/
def typeAt (rank : Nat) : String :=
  typeOrder.getD rank ""

/-- The issue about a declaration of the type at `rank` behind one of the type at `highest`. -/
def orderIssue (highest rank : Nat) (d : Source.Declaration) : Issue :=
  let names := String.ofList d.names
  let typeName := typeAt rank
  let later := typeAt highest
  Issue.warning Rule.variableOrder
    s!"Variable {names} of type \"{typeName}\" should be declared before {later} variables" d.line

/-- Model of the inner loop of `variable_order`: the issues about declarations behind ones of which
`highest` is the latest listed type. -/
def blockOrder (highest : Option Nat) : List Source.Declaration → List Issue
  | [] => []
  | d :: rest =>
    match typeRank? d.typeName with
    | none => blockOrder highest rest
    | some rank =>
      match highest with
      | none => blockOrder (some rank) rest
      | some h =>
        if rank < h then orderIssue h rank d :: blockOrder highest rest
        else blockOrder (some rank) rest

/-- Model of `variable_order`: the issues about the order of declarations. -/
def variableOrder (a : Analysis) : List Issue :=
  a.varBlocks.flatMap fun block => blockOrder none block.declarations

/-! ## First laws -/

theorem typeRank?_lt {typeName : List Char} {rank : Nat} (h : typeRank? typeName = some rank) :
    rank < typeOrder.length :=
  (List.findIdx?_eq_some_iff_getElem.1 h).1

@[simp] theorem blockOrder_nil (highest : Option Nat) : blockOrder highest [] = [] := by
  cases highest <;> rfl

end Acceptance.Check
