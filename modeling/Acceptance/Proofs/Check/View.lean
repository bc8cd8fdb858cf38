import Mathlib.Data.List.Basic
import Acceptance.Proofs.Check.Return
import Acceptance.Proofs.Source.Remasking
import Acceptance.Proofs.Source.Views

/-!
# Checks that look at the masked view alone

The checks of TestPermissions, of the names of objects and of the order of variables never look at
the source as it is written: they search the masked view, and the lines that they cite can be counted
in it. So text that is hidden cannot bring in one of their issues, take it away or move it, and the
masked view taken for a source has the issues of the source.

Main results:

* `issues_of_mask_eq`: sources with the same masked view.
* `check_mask`: a source and its masked view.
-/

namespace Acceptance

open Source

/-- Whether a category is checked on the masked view alone. -/
def Category.isMasked : Category → Bool
  | .permissions | .objectLength | .variableOrder => true
  | _ => false

/-- Sources with the same masked view have the same issues under the masked categories. -/
theorem issues_of_mask_eq {s t : List Char} (h : mask s = mask t) {category : Category}
    (hc : category.isMasked = true) :
    (Analysis.ofChars s).issues category = (Analysis.ofChars t).issues category := by
  have hplaces {α : Type} (find? : Option Char → List Char → Option (α × List Char)) :
      Check.places find? (ofChars s) = Check.places find? (ofChars t) := by
    rw [Check.places_ofChars, Check.places_ofChars, h]
  cases category with
  | permissions =>
    show Check.permissions _ = Check.permissions _
    rw [Check.permissions_eq, Check.permissions_eq]
    exact congrArg _ (hplaces Check.disabledPermissions?)
  | objectLength =>
    show Check.objectLength _ = Check.objectLength _
    rw [Check.objectLength_eq, Check.objectLength_eq]
    exact congrArg _ (hplaces Check.objectName?)
  | variableOrder => exact congrArg (List.flatMap _) (varBlocks_of_mask_eq h)
  | naming | comments | commit | scenarioCount | library => cases hc

/-- The masked view of a source, taken for a source itself, is its own masked view and has no
comments; its lines start at the same offsets, so every offset has the same line, and its blocks of
variables are the same. The checks of TestPermissions, of the names of objects and of the order of
variables report on it, and on every other source with this masked view, what they report on the
source. -/
theorem check_mask (code : String) :
    let s := Source.ofString code
    let masked := String.ofList s.masked
    Source.ofString masked = ⟨s.masked, s.masked, []⟩ ∧
      (∃ starts, views? code.toList = some (starts, s) ∧
        views? masked.toList = some (starts, ⟨s.masked, s.masked, []⟩)) ∧
      (∀ offset, (Source.ofString masked).lineOf offset = s.lineOf offset) ∧
      (Source.ofString masked).varBlocks = s.varBlocks ∧
      ∀ category ∈ [Category.permissions, .objectLength, .variableOrder],
        check category masked = check category code ∧
          ∀ other : String, (Source.ofString other).masked = s.masked →
            check category other = check category code := by
  intro s masked
  have hmasked : masked.toList = mask code.toList := String.toList_ofList
  have hviews : Source.ofString masked = ⟨s.masked, s.masked, []⟩ := by
    rw [Source.ofString, hmasked, ofChars_mask]
    rfl
  refine ⟨hviews, ⟨lineStarts code.toList, views?_eq _, ?_⟩, fun offset => ?_, ?_,
    fun category hc => ?_⟩
  · rw [views?_eq, hmasked, lineStarts_mask, ofChars_mask]
    rfl
  · rw [hviews]
    exact lineAt_mask offset code.toList
  · rw [Source.ofString, hmasked]
    exact varBlocks_of_mask_eq (mask_mask _)
  · have hcategory : category.isMasked = true := by
      simp only [List.mem_cons, List.not_mem_nil, or_false] at hc
      rcases hc with rfl | rfl | rfl <;> rfl
    have hother (other : String) (h : (Source.ofString other).masked = s.masked) :
        check category other = check category code := issues_of_mask_eq h hcategory
    refine ⟨hother masked ?_, hother⟩
    rw [hviews]

/-- A setting of TestPermissions in a comment is hidden, and the one behind it is reported on its
line in both. -/
example :
    let code := "//TestPermissions=Disabled\nTestPermissions=Disabled;"
    (check .permissions code).map Issue.line = [2] ∧
      (check .permissions (String.ofList (Source.ofString code).masked)).map Issue.line = [2] := by
  decide +kernel

end Acceptance
