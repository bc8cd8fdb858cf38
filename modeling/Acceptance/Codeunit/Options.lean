import Acceptance.Codeunit.Naming
import Acceptance.Json.Record
import Acceptance.Plan.Basic

/-!
# Options of generation

The options say which object is generated and which names it uses. Options that cannot give a
conforming object are rejected with the first cause.

Results:
* `validate_default`: the default options are accepted.
* `ofJson?_toJson`: what is written can be read.
-/

namespace Acceptance

/-- Model of `GenerationOptions`: the options of one generation. -/
structure Options where
  codeunitId : UInt32 := 50100
  /-- The name of the codeunit; without one it is derived from the work item. -/
  codeunitName : Option String := none
  /-- The library codeunit that is declared for all tests. -/
  libraryCodeunit : String := "LibraryApprovedSupplier182FDW"
  /-- What stands inside the suffix of derived names. -/
  objectAffix : String := "182"
  deriving Repr, DecidableEq, Inhabited

/-- Why options are rejected. -/
inductive OptionsError where
  | zeroCodeunitId
  | emptyCodeunitName
  | quotedCodeunitName (name : String)
  | codeunitNameTooLong (name : String) (length : Nat)
  | invalidCodeunitName (name : String)
  | invalidLibraryCodeunit (name : String)
  | invalidObjectAffix (affix : String)
  deriving Repr, DecidableEq

/-- The cause in words. -/
def OptionsError.message : OptionsError → String
  | zeroCodeunitId => "codeunit id must be positive"
  | emptyCodeunitName => "codeunit name must not be empty"
  | quotedCodeunitName name => s!"codeunit name must not contain quotation marks: {name}"
  | codeunitNameTooLong name length =>
    s!"codeunit name '{name}' is {length} characters, limit is 30"
  | invalidCodeunitName name => s!"codeunit name must be an identifier: '{name}'"
  | invalidLibraryCodeunit name =>
    s!"library codeunit must be an identifier of at most 30 characters: '{name}'"
  | invalidObjectAffix affix =>
    s!"object affix must be alphanumeric and leave room for a name: '{affix}'"

namespace Options

open Text

/-- Whether an explicit codeunit name can be used. -/
def validateName (name : String) : Except OptionsError Unit :=
  let s := name.toList
  if allBlank s then .error .emptyCodeunitName
  else if s.any fun c => c == '"' || c == '\'' then .error (.quotedCodeunitName name)
  else if s.length > Naming.maxObjectName then .error (.codeunitNameTooLong name s.length)
  else if !Naming.isIdentifier s then .error (.invalidCodeunitName name)
  else .ok ()

/-- Model of `GenerationOptions::validate`: whether the options can be used. -/
def validate (o : Options) : Except OptionsError Unit :=
  let library := o.libraryCodeunit.toList
  let affix := o.objectAffix.toList
  if o.codeunitId = 0 then .error .zeroCodeunitId
  else
    match (o.codeunitName.map validateName).getD (.ok ()) with
    | .error cause => .error cause
    | .ok () =>
      if !Naming.isIdentifier library || byteLength library > Naming.maxObjectName then
        .error (.invalidLibraryCodeunit o.libraryCodeunit)
      else if !affix.all Char.isAlphanum ||
          byteLength (Naming.nameSuffix affix) ≥ Naming.maxObjectName then
        .error (.invalidObjectAffix o.objectAffix)
      else .ok ()

/-- Model of `resolved_codeunit_name`: the name of the codeunit for a plan with the given metadata.
-/
def nameFor (o : Options) (m : Metadata) : String :=
  match o.codeunitName with
  | some name => name
  | none => String.ofList (Naming.codeunitName m.workItem.toList o.objectAffix.toList)

open Json

/-- The options as a record. -/
def toJson (o : Options) : Json :=
  .object [("codeunit_id", .natural o.codeunitId.toNat),
    ("codeunit_name", (o.codeunitName.map .text).getD .null),
    ("library_codeunit", .text o.libraryCodeunit), ("object_affix", .text o.objectAffix)]

/-- The options that a record gives; fields may be left out. -/
def ofJson? (v : Json) : Option Options := do
  let default : Options := {}
  match ← fields? ["codeunit_id", "codeunit_name", "library_codeunit", "object_affix"] v with
  | [codeunitId, codeunitName, libraryCodeunit, objectAffix] =>
    return {
      codeunitId := ← defaulted? default.codeunitId word32? codeunitId
      codeunitName := ← defaulted? default.codeunitName optionalText? codeunitName
      libraryCodeunit := ← defaulted? default.libraryCodeunit text? libraryCodeunit
      objectAffix := ← defaulted? default.objectAffix text? objectAffix }
  | _ => none

end Options

/-! ## First laws -/

theorem Options.validate_default : validate {} = .ok () := by rfl

theorem Options.ofJson?_toJson (o : Options) : ofJson? o.toJson = some o := by
  obtain ⟨id, name, library, affix⟩ := o
  have h : id.toNat < 4294967296 := id.toNat_lt
  cases name <;> simp [toJson, ofJson?, Json.fields?, Json.field?, Json.defaulted?, Json.word32?,
    Json.optionalText?, Json.text?, UInt32.size, h]

end Acceptance
