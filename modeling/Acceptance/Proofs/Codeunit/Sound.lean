import Mathlib.Data.List.Basic
import Acceptance.Proofs.Codeunit.Whole
import Acceptance.Proofs.Plan.Line

/-!
# Accepted options give sound codeunits

What the validation of options checks is what the layout needs: the names are plain, and an object
name is never too long. A plan whose texts stay on their lines brings nothing else into the code.

Main results:

* `Options.spec_of_validate`: what accepted options promise.
* `Naming.length_codeunitName_le`: derived names fit.
* `Codeunit.isSound_ofPlan`: the codeunit of a plan is sound.
-/

namespace Acceptance

open Text

/-! ## Names -/

namespace Naming

theorem isPlain_stem (workItem : List Char) : IsPlain (stem workItem) := by
  unfold stem
  split
  · decide
  · next hp => exact hp ▸ isPlain_pascalCase _ 3

variable {affix : List Char}

theorem isPlain_nameSuffix (h : affix.all Char.isAlphanum = true) : IsPlain (nameSuffix affix) := by
  have ha : IsPlain affix := fun c hc =>
    isPlainNameChar_of_isAlphanum (List.all_eq_true.1 h c hc)
  have ht : IsPlain "Tests".toList := by decide
  have hf : IsPlain "FDW".toList := by decide
  exact (ht.append ha).append hf

theorem isPlain_codeunitName (h : affix.all Char.isAlphanum = true) (workItem : List Char) :
    IsPlain (codeunitName workItem affix) :=
  ((isPlain_stem workItem).cut _).append (isPlain_nameSuffix h)

theorem codeunitName_ne_nil (workItem affix : List Char) : codeunitName workItem affix ≠ [] := by
  intro h
  have hs := (List.append_eq_nil_iff.1 h).2
  exact absurd (List.append_eq_nil_iff.1 hs).2 (by decide)

theorem length_codeunitName_le (h : affix.all Char.isAlphanum = true)
    (hb : byteLength (nameSuffix affix) ≤ maxObjectName) (workItem : List Char) :
    (codeunitName workItem affix).length ≤ maxObjectName := by
  have hs := (isPlain_nameSuffix h).byteLength_eq
  unfold codeunitName
  simp only [List.length_append, length_cut (isPlain_stem workItem)]
  omega

end Naming

/-! ## Options -/

namespace Options

variable {o : Options}

theorem spec_of_validateName {name : String} (h : validateName name = .ok ()) :
    Naming.isIdentifier name.toList = true ∧ name.toList.length ≤ Naming.maxObjectName := by
  unfold validateName at h
  simp only at h
  split_ifs at h with h1 h2 h3 h4
  exact ⟨by simpa using h4, by omega⟩

/-- What accepted options promise: a number, an identifier for the library, an affix of letters and
digits that leaves room for a name, and an identifier of at most 30 characters if a name is given. -/
theorem spec_of_validate (h : o.validate = .ok ()) :
    (∀ name ∈ o.codeunitName, Naming.isIdentifier name.toList = true ∧
        name.toList.length ≤ Naming.maxObjectName) ∧
      Naming.isIdentifier o.libraryCodeunit.toList = true ∧
      o.objectAffix.toList.all Char.isAlphanum = true ∧
      byteLength (Naming.nameSuffix o.objectAffix.toList) < Naming.maxObjectName := by
  unfold validate at h
  by_cases h0 : o.codeunitId = 0
  · rw [if_pos h0] at h
    cases h
  rw [if_neg h0] at h
  cases hn : (o.codeunitName.map validateName).getD (.ok ()) with
  | error cause =>
    rw [hn] at h
    cases h
  | ok _ =>
    rw [hn] at h
    simp only at h
    split_ifs at h with h1 h2
    simp only [Bool.or_eq_true, Bool.not_eq_true', decide_eq_true_eq, not_or,
      Bool.not_eq_false] at h1 h2
    refine ⟨fun name hname => ?_, h1.1, h2.1, Nat.lt_of_not_le h2.2⟩
    rw [Option.mem_def.1 hname] at hn
    exact spec_of_validateName hn

end Options

/-! ## Codeunits -/

theorem Metadata.not_mem_workItemNumber (m : Metadata) :
    '\n' ∉ (m.workItemNumber?.getD defaultWorkItemNumber).toList := by
  unfold workItemNumber?
  split
  · show '\n' ∉ defaultWorkItemNumber.toList
    decide
  · rw [Option.getD_some, String.toList_ofList]
    intro hm
    exact absurd (List.all_eq_true.1 List.all_takeWhile _ hm) (by decide)

theorem Scenario.mem_known_of_mem_localDeclarations (s : Scenario) :
    ∀ d ∈ s.localDeclarations, d ∈ knownDeclarations := by
  intro d hd
  unfold localDeclarations at hd
  split at hd
  · exact List.mem_cons.2 (.inl (List.mem_singleton.1 hd))
  · next hrules =>
    rw [← hrules] at hd
    obtain ⟨r, hr, hd⟩ := List.mem_flatMap.1 hd
    exact List.mem_cons_of_mem _ (List.mem_flatMap.2 ⟨r, List.mem_of_mem_filter hr, hd⟩)

/-- The fallback is declared alone. -/
theorem Scenario.localDeclarations_fallback (s : Scenario) :
    s.localDeclarations = [fallbackDeclaration] ∨ fallbackDeclaration ∉ s.localDeclarations := by
  unfold localDeclarations
  split
  · exact .inl rfl
  · next hrules =>
    refine .inr fun hm => ?_
    rw [← hrules] at hm
    obtain ⟨r, hr, hd⟩ := List.mem_flatMap.1 hm
    have key : ∀ r ∈ declarationRules, fallbackDeclaration ∉ r.declarations := by decide
    exact key r (List.mem_of_mem_filter hr) hd

/-- A step of a group is a text of the scenario. -/
theorem Scenario.mem_texts_of_mem_groupSteps {s : Scenario} {g : Group} {step : String}
    (h : step ∈ s.groupSteps g) : step ∈ s.texts := by
  refine List.mem_cons_of_mem _ (List.mem_cons_of_mem _ ?_)
  simp only [List.mem_append]
  rcases List.mem_append.1 h with h | h
  · cases g with
    | given => exact .inl (.inl (.inl h))
    | when => exact .inl (.inl (.inr h))
    | expected => exact .inl (.inr h)
  · obtain ⟨a, ha, rfl⟩ := List.mem_map.1 h
    exact .inr (List.mem_map_of_mem (List.mem_of_mem_filter ha))

theorem TestProcedure.isSound_ofScenario {s : Scenario} (h : ∀ text ∈ s.texts, '\n' ∉ text.toList) :
    (TestProcedure.ofScenario s).IsSound where
  name := by
    refine ⟨padded 4 s.id.toNat ++ '_' :: Naming.cut Naming.maxTitle
      (Naming.pascalTitle s.title.toList), ?_, Naming.isPlain_procedureName⟩
    exact String.toList_ofList
  title := h _ List.mem_cons_self
  given := fun _ hs => h _ (Scenario.mem_texts_of_mem_groupSteps hs)
  when := fun _ hs => h _ (Scenario.mem_texts_of_mem_groupSteps hs)
  expected := fun _ hs => h _ (Scenario.mem_texts_of_mem_groupSteps hs)
  declarations := s.mem_known_of_mem_localDeclarations
  fallback := s.localDeclarations_fallback

theorem Codeunit.isSound_ofPlan {o : Options} (ho : o.validate = .ok ()) {p : Plan}
    (hp : p.IsSingleLine) : (Codeunit.ofPlan o p).IsSound := by
  obtain ⟨hname, hlibrary, haffix, hroom⟩ := Options.spec_of_validate ho
  have names : IsPlain (o.nameFor p.metadata).toList ∧ (o.nameFor p.metadata).toList ≠ [] ∧
      (o.nameFor p.metadata).toList.length ≤ Naming.maxObjectName := by
    unfold Options.nameFor
    cases hc : o.codeunitName with
    | some name =>
      obtain ⟨hi, hl⟩ := hname name hc
      exact ⟨(isPlain_of_isIdentifier hi).1, (isPlain_of_isIdentifier hi).2, hl⟩
    | none =>
      simp only [String.toList_ofList]
      exact ⟨Naming.isPlain_codeunitName haffix _, Naming.codeunitName_ne_nil _ _,
        Naming.length_codeunitName_le haffix (Nat.le_of_lt hroom) _⟩
  refine ⟨names.1, names.2.1, names.2.2, p.metadata.not_mem_workItemNumber, ?_, hlibrary, ?_⟩
  · exact hp _ (List.mem_append_left _ (List.mem_cons_of_mem _ List.mem_cons_self))
  · intro t ht
    obtain ⟨s, hs, rfl⟩ := List.mem_map.1 ht
    exact TestProcedure.isSound_ofScenario fun text hm =>
      hp _ (List.mem_append_right _ (List.mem_flatMap.2 ⟨s, hs, hm⟩))

end Acceptance
