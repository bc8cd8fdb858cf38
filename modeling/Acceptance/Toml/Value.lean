/-!
# Configuration values

The value tree of a TOML document. A table remembers how it came to be, for that decides whether it
may be extended: a header opens a table once, dotted keys only extend tables made by dotted keys, a
table written in braces is closed, and a table that a longer header implies is still open.

Results:
* `lookup_setMember`: the value that was set is found.
-/

namespace Acceptance

/-- How a table came to be. -/
inductive TableOrigin where
  /-- It has a header of its own, or is the document. -/
  | header
  /-- It is on the way to a table with a header. -/
  | implied
  /-- It is on the way of a dotted key. -/
  | dotted
  /-- It is written in braces. -/
  | braces
  deriving Repr, DecidableEq

/-- A value. Floats and moments of time carry no content. -/
inductive Toml where
  | text (s : String)
  | integer (n : Int)
  | bool (b : Bool)
  | float
  | moment
  | list (items : List Toml)
  | table (origin : TableOrigin) (members : List (String × Toml))
  /-- Tables with the same header, in order. -/
  | tables (items : List (List (String × Toml)))
  deriving Repr, Inhabited

namespace Toml

/-- The members of a table. -/
abbrev Members := List (String × Toml)

/-- The members with a new value for one key. -/
def setMember (key : String) (v : Toml) : Members → Members
  | [] => [(key, v)]
  | (k, old) :: rest => if k == key then (key, v) :: rest else (k, old) :: setMember key v rest

/-- The list with its last item replaced. -/
def setLast (m : Members) (items : List Members) : List Members :=
  items.dropLast ++ [m]

/-- Changes the table at the end of a path. Tables on the way are made if they are missing; of
tables with the same header the last one is taken. A dotted path must not lead into a table with a
header, and no path leads into braces. -/
def within (isDotted : Bool) (change : TableOrigin → Members → Option Members) :
    List String → TableOrigin → Members → Option Members
  | [], origin, members => change origin members
  | key :: path, _, members =>
    match members.lookup key with
    | none =>
      let origin := if isDotted then TableOrigin.dotted else .implied
      (within isDotted change path origin []).map fun inner =>
        setMember key (table origin inner) members
    | some (table origin inner) =>
      if origin == .braces || (isDotted && origin == .header) then none
      else
        (within isDotted change path origin inner).map fun inner =>
          setMember key (table origin inner) members
    | some (tables items) =>
      match items.getLast? with
      | none => none
      | some inner =>
        (within isDotted change path .header inner).map fun inner =>
          setMember key (tables (setLast inner items)) members
    | some _ => none

/-- Gives a new key a value. Dotted keys add to tables made by dotted keys, other keys to the
rest. -/
def assign (isDotted : Bool) (key : String) (v : Toml) (origin : TableOrigin) (members : Members) :
    Option Members :=
  if (origin == .dotted) != isDotted || (members.lookup key).isSome then none
  else some (members ++ [(key, v)])

/-- Gives a key behind a path a value. -/
def assignPath (path : List String) (key : String) (v : Toml) (origin : TableOrigin)
    (members : Members) : Option Members :=
  within true (assign (!path.isEmpty) key v) path origin members

/-- Opens the table of a header. -/
def openTable (key : String) (_ : TableOrigin) (members : Members) : Option Members :=
  match members.lookup key with
  | none => some (setMember key (table .header []) members)
  | some (table .implied inner) => some (setMember key (table .header inner) members)
  | some _ => none

/-- Opens one more table with the same header. -/
def openNextTable (key : String) (_ : TableOrigin) (members : Members) : Option Members :=
  match members.lookup key with
  | none => some (setMember key (tables [[]]) members)
  | some (tables items) => some (setMember key (tables (items ++ [[]])) members)
  | some _ => none

/-! ## First laws -/

theorem lookup_setMember (key : String) (v : Toml) (members : Members) :
    (setMember key v members).lookup key = some v := by
  induction members with
  | nil => simp [setMember]
  | cons m rest ih =>
    obtain ⟨k, old⟩ := m
    by_cases h : k = key
    · simp [setMember, h]
    · have h' : (key == k) = false := by simpa using Ne.symm h
      simp [setMember, h, List.lookup_cons, h', ih]

end Toml

end Acceptance
