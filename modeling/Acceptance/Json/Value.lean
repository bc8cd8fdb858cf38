/-!
# JSON values

A JSON document as a tree. Objects keep their members in written order, repeated names included,
so that a reader of records can refuse a repetition. Of the numbers only the natural ones without
fraction or exponent carry a value; any other is kept as it is written.
-/

namespace Acceptance

/-- A JSON value. -/
inductive Json where
  | null
  | bool (b : Bool)
  | natural (n : Nat)
  /-- A number with a sign, a fraction or an exponent, as written. -/
  | number (written : String)
  | text (s : String)
  /-- A string literal with an escaped surrogate that has no partner, or an object with such a name:
  it stands for no text and no record. -/
  | broken
  | list (items : List Json)
  | object (members : List (String × Json))
  deriving Repr, Inhabited

end Acceptance
