import Mathlib.Data.List.Basic
import Acceptance.Config

/-!
# What a configuration says

A record of a document gives a field under its name, or at its place if the record is a list. An
option has the value that the record of generation gives to its field, and its default if there is no
such field; a value of another kind makes the document malformed.

Main results:

* `Toml.getElem?_fields?`: the fields of a record.
* `Config.areGiven_of_read?`: the options in a document.
-/

namespace Acceptance

/-! ## Specification -/

/-- What a record gives to a field with the given place and name. -/
def Toml.field? (place : ℕ) (name : String) : Toml → Option Toml
  | table _ members => members.lookup name
  | list items => items[place]?
  | tables items => items[place]?.map (table .header)
  | _ => none

/-- What the record of generation in a document gives to a field. -/
def Config.generationField? (document : String) (place : ℕ) (name : String) : Option Toml := do
  let root ← Toml.read? document.toList
  let generation ← root.field? 0 "generation"
  generation.field? place name

/-- Options that are given by the fields of a record. -/
structure Options.AreGiven (o : Options) (given? : ℕ → String → Option Toml) : Prop where
  codeunitId : Toml.defaulted? 50100 Toml.word32Value? (given? 0 "codeunit_id") = some o.codeunitId
  codeunitName : Toml.defaulted? none (fun v => (Toml.textValue? v).map some)
    (given? 1 "codeunit_name") = some o.codeunitName
  libraryCodeunit : Toml.defaulted? "LibraryApprovedSupplier182FDW" Toml.textValue?
    (given? 2 "library_codeunit") = some o.libraryCodeunit
  objectAffix : Toml.defaulted? "182" Toml.textValue? (given? 3 "object_affix") =
    some o.objectAffix

/-! ## Records -/

namespace Toml

theorem getElem?_positional {α : Type} (items : List α) {n i : ℕ} (h : i < n) :
    (positional n items)[i]? = some items[i]? := by
  induction n generalizing items i with
  | zero => omega
  | succ n ih =>
    cases items with
    | nil =>
      cases i with
      | zero => rfl
      | succ i =>
        rw [positional, List.getElem?_cons_succ, ih [] (by omega)]
        rfl
    | cons a items =>
      cases i with
      | zero => rfl
      | succ i => rw [positional, List.getElem?_cons_succ, ih items (by omega),
          List.getElem?_cons_succ]

/-- The values of a record are those of its fields. -/
theorem getElem?_fields? {names : List String} {v : Toml} {values : List (Option Toml)}
    (h : fields? names v = some values) {i : ℕ} {name : String} (hi : names[i]? = some name) :
    values[i]? = some (v.field? i name) := by
  have hlt : i < names.length := (List.getElem?_eq_some_iff.1 hi).1
  cases v with
  | table origin members =>
    cases h
    rw [List.getElem?_map, hi]
    rfl
  | list items =>
    cases h
    exact getElem?_positional items hlt
  | tables items =>
    cases h
    rw [getElem?_positional _ hlt, List.getElem?_map]
    rfl
  | moment =>
    cases h
    rw [List.getElem?_map, hi]
    rfl
  | text s => cases h
  | integer n => cases h
  | bool b => cases h
  | float => cases h

end Toml

/-! ## Configurations -/

theorem Options.areGiven_of_ofToml? {v : Toml} {o : Options} (h : ofToml? v = some o) :
    o.AreGiven fun place name => v.field? place name := by
  simp only [ofToml?, Option.bind_eq_bind, Option.bind_eq_some_iff] at h
  obtain ⟨values, hvalues, h⟩ := h
  split at h
  · next codeunitId codeunitName libraryCodeunit objectAffix =>
    simp only [Option.bind_eq_some_iff, Option.pure_def, Option.some.injEq] at h
    obtain ⟨id, hid, name, hname, library, hlibrary, affix, haffix, rfl⟩ := h
    have hfield {i : ℕ} {name : String} {value : Option Toml}
        (hi : ["codeunit_id", "codeunit_name", "library_codeunit", "object_affix"][i]? = some name)
        (hv : [codeunitId, codeunitName, libraryCodeunit, objectAffix][i]? = some value) :
        v.field? i name = value :=
      Option.some.inj ((Toml.getElem?_fields? hvalues hi).symm.trans hv)
    constructor
    · rw [hfield rfl rfl]
      exact hid
    · rw [hfield rfl rfl]
      exact hname
    · rw [hfield rfl rfl]
      exact hlibrary
    · rw [hfield rfl rfl]
      exact haffix
  · cases h

/-- A configuration has the options that its document gives. -/
theorem Config.areGiven_of_read? {document : String} {c : Config} (h : read? document = some c) :
    c.generation.AreGiven (generationField? document) := by
  simp only [read?, ofToml?, Option.bind_eq_bind, Option.bind_eq_some_iff] at h
  obtain ⟨root, hroot, values, hvalues, h⟩ := h
  split at h
  · next generation validation =>
    simp only [Option.bind_eq_some_iff, Option.pure_def, Option.some.injEq] at h
    obtain ⟨options, hoptions, strict, -, rfl⟩ := h
    have hgeneration : root.field? 0 "generation" = generation :=
      Option.some.inj ((Toml.getElem?_fields? hvalues (i := 0) rfl).symm.trans rfl)
    have hgiven : generationField? document = fun place name =>
        generation.bind fun v => v.field? place name := by
      funext place name
      rw [generationField?, hroot, Option.bind_eq_bind, Option.bind_some, hgeneration]
    rw [hgiven]
    cases generation with
    | none =>
      obtain rfl := Option.some.inj hoptions
      exact ⟨rfl, rfl, rfl, rfl⟩
    | some v => exact Options.areGiven_of_ofToml? hoptions
  · cases h

end Acceptance
