import Acceptance.Toml.Value

/-!
# Records in configuration

A record is written as a table with its field names among others, or as a list of its fields in
their order, which may be shorter or longer. A moment has members of its own, but none with the name
of a field. Every field has a default.
-/

namespace Acceptance.Toml

/-- The first `n` items, none for those that are missing. -/
def positional {α : Type} : Nat → List α → List (Option α)
  | 0, _ => []
  | n + 1, [] => none :: positional n []
  | n + 1, a :: rest => some a :: positional n rest

/-- The values of the named fields of a record, in the order of the names; missing ones are
none. -/
def fields? (names : List String) : Toml → Option (List (Option Toml))
  | table _ members => some (names.map fun name => members.lookup name)
  | list items => some (positional names.length items)
  | tables items => some (positional names.length (items.map (table .header)))
  | moment => some (names.map fun _ => none)
  | _ => none

/-- A text. -/
def textValue? : Toml → Option String
  | text s => some s
  | _ => none

/-- A truth value. -/
def boolValue? : Toml → Option Bool
  | bool b => some b
  | _ => none

/-- A natural number below `2 ^ 32`. -/
def word32Value? : Toml → Option UInt32
  | integer n => if 0 ≤ n ∧ n < UInt32.size then some (UInt32.ofNat n.toNat) else none
  | _ => none

/-- A field with a default. -/
def defaulted? {α : Type} (default : α) (value? : Toml → Option α) : Option Toml → Option α
  | none => some default
  | some v => value? v

end Acceptance.Toml
