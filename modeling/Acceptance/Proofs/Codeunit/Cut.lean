import Mathlib.Data.List.TakeWhile
import Acceptance.Proofs.Codeunit.Sound
import Acceptance.Proofs.Source.Offset

/-!
# Cutting the parts of a name

The parts of a name are cut at a number of bytes, and the number of a work item is cut out of its
text. Names are made of ASCII characters only, and a run of digits starts and ends between two
characters, so every cut is possible, whatever the options and the plan are.

Main results:

* `Naming.procedureName?_eq`, `Naming.codeunitName?_eq`: names can be cut to fit.
* `Metadata.number?_eq`: the number of a work item can be cut out.
* `generate?_eq`: code is generated without a cut that is not possible.
-/

namespace Acceptance

open Text

/-! ## Names -/

namespace Naming

/-- The name of the test procedure of a scenario, with the cut checked. -/
def procedureName? (id : UInt32) (title : List Char) : Option (List Char) := do
  return 'T' :: padded 4 id.toNat ++ '_' :: (← truncateBytes? maxTitle (pascalTitle title))

/-- The codeunit name derived from a work item, with the cut checked. -/
def codeunitName? (workItem affix : List Char) : Option (List Char) := do
  let suffix := nameSuffix affix
  return (← truncateBytes? (maxObjectName - byteLength suffix) (stem workItem)) ++ suffix

theorem truncateBytes?_eq_cut {s : List Char} (h : IsPlain s) (n : ℕ) :
    truncateBytes? n s = some (cut n s) := by
  rw [truncateBytes?_eq_take h, cut_eq_take h]

theorem procedureName?_eq (id : UInt32) (title : List Char) :
    procedureName? id title = some (procedureName id title) := by
  rw [procedureName?, truncateBytes?_eq_cut (isPlain_pascalTitle title)]
  rfl

theorem codeunitName?_eq (workItem affix : List Char) :
    codeunitName? workItem affix = some (codeunitName workItem affix) := by
  rw [codeunitName?, truncateBytes?_eq_cut (isPlain_stem workItem)]
  rfl

end Naming

/-! ## Numbers -/

namespace Text

/-- The byte offset of the first character with a property. -/
def firstOffset? (p : Char → Bool) : List Char → Option ℕ
  | [] => none
  | c :: s => if p c then some 0 else (firstOffset? p s).map (c.utf8Size + ·)

theorem firstOffset?_eq (p : Char → Bool) (s : List Char) :
    firstOffset? p s = if s.all (!p ·) then none
      else some (byteLength (s.takeWhile (!p ·))) := by
  induction s with
  | nil => rfl
  | cons c s ih =>
    rw [firstOffset?, ih]
    by_cases hc : p c = true
    · simp [hc]
    · by_cases hs : s.all (!p ·) = true <;> simp [hc, hs]

/-- A run ends in front of another character or at the end of the text. -/
theorem firstOffset?_getD (p : Char → Bool) (s : List Char) :
    (firstOffset? (!p ·) s).getD (byteLength s) = byteLength (s.takeWhile p) := by
  simp only [firstOffset?_eq, Bool.not_not]
  split_ifs with hall
  · rw [List.takeWhile_eq_self_iff.2 (List.all_eq_true.1 hall)]
    rfl
  · rfl

end Text

namespace Metadata

/-- The first run of ASCII digits in the work item, with its bounds checked: it starts at the first
digit and ends at the next other character or at the end. -/
def number? (m : Metadata) : Option (Option String) :=
  let text := m.workItem.toList
  match firstOffset? isAsciiDigit text with
  | none => return none
  | some start => do
    let rest ← dropBytes? start text
    let length := (firstOffset? (!isAsciiDigit ·) rest).getD (byteLength text - start)
    return some (String.ofList (← slice? start (start + length) text))

theorem number?_eq (m : Metadata) : m.number? = some m.workItemNumber? := by
  rw [number?, workItemNumber?]
  generalize m.workItem.toList = text
  by_cases hall : text.all (!isAsciiDigit ·) = true
  · have hrest : text.dropWhile (!isAsciiDigit ·) = [] :=
      List.dropWhile_eq_nil_iff.2 (List.all_eq_true.1 hall)
    simp only [firstOffset?_eq, hall, if_true, hrest]
    rfl
  · obtain ⟨before, hbefore⟩ : ∃ before, text.takeWhile (!isAsciiDigit ·) = before := ⟨_, rfl⟩
    obtain ⟨rest, hrest⟩ : ∃ rest, text.dropWhile (!isAsciiDigit ·) = rest := ⟨_, rfl⟩
    have htext : text = before ++ rest := by
      rw [← hbefore, ← hrest, List.takeWhile_append_dropWhile]
    have hstart : firstOffset? isAsciiDigit text = some (byteLength before) := by
      rw [firstOffset?_eq, if_neg hall, hbefore]
    have hdrop : dropBytes? (byteLength before) text = some rest := by
      rw [htext, dropBytes?_append]
    have hlength : byteLength text - byteLength before = byteLength rest := by
      rw [htext, byteLength_append, Nat.add_sub_cancel_left]
    have hslice : slice? (byteLength before)
        (byteLength before + byteLength (rest.takeWhile isAsciiDigit)) text =
        some (rest.takeWhile isAsciiDigit) := by
      have hparts : rest = rest.takeWhile isAsciiDigit ++ rest.dropWhile isAsciiDigit :=
        List.takeWhile_append_dropWhile.symm
      exact slice?_of_dropBytes? (hdrop.trans (congrArg some hparts))
    have hne : rest.takeWhile isAsciiDigit ≠ [] := by
      have hhead := List.head?_dropWhile_not (!isAsciiDigit ·) text
      rw [hrest] at hhead
      cases rest with
      | nil => exact absurd (List.all_eq_true.2 (List.dropWhile_eq_nil_iff.1 hrest)) hall
      | cons c rest =>
        rw [List.takeWhile_cons_of_pos (by simpa using hhead)]
        exact List.cons_ne_nil _ _
    simp only [hstart, hdrop, hrest, hlength, firstOffset?_getD, hslice, Option.bind_eq_bind,
      Option.bind_some]
    cases hdigits : rest.takeWhile isAsciiDigit with
    | nil => exact absurd hdigits hne
    | cons c digits => rfl

end Metadata

/-! ## Code -/

/-- The test procedure of a scenario, with every cut checked. -/
def TestProcedure.ofScenario? (s : Scenario) : Option TestProcedure := do
  return { ofScenario s with
    name := String.ofList (← Naming.procedureName? s.id s.title.toList) }

/-- The name of the codeunit for a plan with the given metadata, with every cut checked. -/
def Options.nameFor? (o : Options) (m : Metadata) : Option String :=
  match o.codeunitName with
  | some name => return name
  | none => do
    return String.ofList (← Naming.codeunitName? m.workItem.toList o.objectAffix.toList)

/-- The test codeunit of a plan, with every cut checked. -/
def Codeunit.ofPlan? (o : Options) (p : Plan) : Option Codeunit := do
  return { ofPlan o p with
    name := ← o.nameFor? p.metadata
    workItemNumber := (← p.metadata.number?).getD defaultWorkItemNumber
    tests := ← p.scenarios.mapM TestProcedure.ofScenario? }

/-- The code of the test codeunit of a plan, with every cut checked. -/
def generate? (o : Options) (p : Plan) : Option String := do
  return (← Codeunit.ofPlan? o p).code

theorem Options.nameFor?_eq (o : Options) (m : Metadata) : o.nameFor? m = some (o.nameFor m) := by
  rw [nameFor?, nameFor]
  cases o.codeunitName with
  | some name => rfl
  | none =>
    simp only [Naming.codeunitName?_eq]
    rfl

theorem TestProcedure.mapM_ofScenario? (ss : List Scenario) :
    ss.mapM ofScenario? = some (ss.map ofScenario) := by
  have hone : ofScenario? = fun s => some (ofScenario s) := by
    funext s
    rw [ofScenario?, Naming.procedureName?_eq]
    rfl
  rw [hone]
  exact List.mapM_pure

/-- Code is generated without a cut that is not possible. -/
theorem generate?_eq (o : Options) (p : Plan) : generate? o p = some (generate o p) := by
  rw [generate?, Codeunit.ofPlan?, Options.nameFor?_eq, Metadata.number?_eq,
    TestProcedure.mapM_ofScenario?]
  rfl

end Acceptance
