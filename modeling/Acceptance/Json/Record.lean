import Acceptance.Json.Value

/-!
# Records in JSON

A record is written as an object with its field names, in any order and with other members besides,
or as a list of its fields in their order. No field may be given twice. Where every field of a
record has a default, fields may be missing and a list may stop early; otherwise each field is
needed. A list never has more items than the record has fields.
-/

namespace Acceptance.Json

/-- The value of one field among the members: outer none if it is given twice, inner none if it is
missing. -/
def field? (members : List (String × Json)) (name : String) : Option (Option Json) :=
  match members.filter (·.1 == name) with
  | [] => some none
  | [(_, v)] => some (some v)
  | _ => none

/-- The values of the named fields of a record, in the order of the names; missing ones are
none. -/
def fields? (names : List String) : Json → Option (List (Option Json))
  | object members => names.mapM (field? members)
  | list items =>
    if items.length ≤ names.length then
      some (items.map some ++ List.replicate (names.length - items.length) none)
    else none
  | _ => none

/-- A text. -/
def text? : Json → Option String
  | text s => some s
  | _ => none

/-- A truth value. -/
def bool? : Json → Option Bool
  | bool b => some b
  | _ => none

/-- A natural number below `2 ^ 32`. -/
def word32? : Json → Option UInt32
  | natural n => if n < UInt32.size then some (UInt32.ofNat n) else none
  | _ => none

/-- A text, or null for none. -/
def optionalText? : Json → Option (Option String)
  | null => some none
  | text s => some (some s)
  | _ => none

/-- A list of which every item is read in the same way. -/
def listOf? {α : Type} (item? : Json → Option α) : Json → Option (List α)
  | list items => items.mapM item?
  | _ => none

/-- A field that must be there. -/
def required? {α : Type} (value? : Json → Option α) (v : Option Json) : Option α :=
  v.bind value?

/-- A field with a default. -/
def defaulted? {α : Type} (default : α) (value? : Json → Option α) : Option Json → Option α
  | none => some default
  | some v => value? v

end Acceptance.Json
