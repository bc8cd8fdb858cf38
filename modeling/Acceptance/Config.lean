import Acceptance.Codeunit.Options
import Acceptance.Toml.Reader
import Acceptance.Toml.Record

/-!
# Configuration

A configuration holds the options of generation and says whether warnings count as failures. It is
read from a document with the tables `generation` and `validation`; what a document leaves out has
its default, and what it says besides does not count.

Results:
* `ofJson?_toJson`: a configuration that is written as a record is read back.
-/

namespace Acceptance

open Toml

/-- The options that a record gives. -/
def Options.ofToml? (v : Toml) : Option Options := do
  let default : Options := {}
  match ← fields? ["codeunit_id", "codeunit_name", "library_codeunit", "object_affix"] v with
  | [codeunitId, codeunitName, libraryCodeunit, objectAffix] =>
    return {
      codeunitId := ← defaulted? default.codeunitId word32Value? codeunitId
      codeunitName := ←
        defaulted? default.codeunitName (fun v => (textValue? v).map some) codeunitName
      libraryCodeunit := ← defaulted? default.libraryCodeunit textValue? libraryCodeunit
      objectAffix := ← defaulted? default.objectAffix textValue? objectAffix }
  | _ => none

/-- Model of `AtddConfig`: a configuration. -/
structure Config where
  generation : Options := {}
  /-- Whether warnings count as failures. -/
  failOnWarnings : Bool := false
  deriving Repr, DecidableEq, Inhabited

namespace Config

/-- Whether warnings count as failures, by the record of validation. -/
def strictOfToml? (v : Toml) : Option Bool := do
  match ← fields? ["fail_on_warnings"] v with
  | [strict] => defaulted? false boolValue? strict
  | _ => none

/-- The configuration that a record gives. -/
def ofToml? (v : Toml) : Option Config := do
  match ← fields? ["generation", "validation"] v with
  | [generation, validation] =>
    return {
      generation := ← Toml.defaulted? {} Options.ofToml? generation
      failOnWarnings := ← Toml.defaulted? false strictOfToml? validation }
  | _ => none

/-- Model of `from_toml_str`: the configuration that a document describes; none if it is malformed.
-/
def read? (document : String) : Option Config :=
  (Toml.read? document.toList).bind ofToml?

/-- The configuration as a record. -/
def toJson (c : Config) : Json :=
  .object [("generation", c.generation.toJson),
    ("validation", .object [("fail_on_warnings", .bool c.failOnWarnings)])]

/-- Whether warnings count as failures, by the record of validation. -/
def strictOfJson? (v : Json) : Option Bool := do
  match ← Json.fields? ["fail_on_warnings"] v with
  | [strict] => Json.defaulted? false Json.bool? strict
  | _ => none

/-- The configuration that a record gives; fields may be left out. -/
def ofJson? (v : Json) : Option Config := do
  match ← Json.fields? ["generation", "validation"] v with
  | [generation, validation] =>
    return {
      generation := ← Json.defaulted? {} Options.ofJson? generation
      failOnWarnings := ← Json.defaulted? false strictOfJson? validation }
  | _ => none

end Config

/-! ## First laws -/

theorem Config.ofJson?_toJson (c : Config) : ofJson? c.toJson = some c := by
  simp [toJson, ofJson?, strictOfJson?, Json.fields?, Json.field?, Json.defaulted?, Json.bool?,
    Options.ofJson?_toJson]

end Acceptance
