import Acceptance.Text.Digit

/-!
# Arguments of a command

A command takes options, which are named, and at most one operand. An option is written with two
hyphens and its name, or with one hyphen and a letter; letters without values may share a hyphen. A
value is attached to its option or is the next argument, as long as that does not look like an
option. Two hyphens alone end the options.

A value is looked at only once something comes behind it, so an unknown argument is refused before a
bad value in front of it. No option but a counter may be given twice.
-/

namespace Acceptance

open Text

/-- What an option or operand takes. -/
inductive ParameterKind where
  | flag
  /-- A flag that counts how often it is given. -/
  | counter
  | help
  | version
  /-- A path, which is not empty. -/
  | path
  | text
  /-- A number below `2 ^ 32`. -/
  | word
  deriving Repr, DecidableEq

/-- An option or an operand. -/
structure Parameter where
  name : String
  letter : Option Char := none
  kind : ParameterKind
  deriving Repr, DecidableEq

/-- Whether a parameter takes a value. -/
def Parameter.takesValue (p : Parameter) : Bool :=
  p.kind == .path || p.kind == .text || p.kind == .word

/-- What a parameter was given. -/
inductive Setting where
  | on
  | count (n : Nat)
  | path (s : String)
  | text (s : String)
  | word (n : UInt32)
  deriving Repr, DecidableEq

/-- Why arguments do not run a command. -/
inductive Refusal where
  /-- Help was asked for. -/
  | help
  /-- Nothing was given at all. -/
  | nothingGiven
  /-- The version was asked for. -/
  | version
  | unknownCommand
  | missingCommand
  | missingOperand
  | unknownArgument
  | repeated
  /-- A value that is no number in range. -/
  | badNumber
  /-- A value that is missing, or empty where it must not be. -/
  | noValue
  /-- A value for an option that takes none. -/
  | unwantedValue
  deriving Repr, DecidableEq

/-- The parameters of a command. -/
structure Grammar where
  options : List Parameter
  operand : Option Parameter := none
  /-- The names of the commands that may follow. -/
  commands : List String := []
  deriving Repr, DecidableEq

/-- The arguments that have been read. -/
structure Reading where
  settings : List (String × Setting) := []
  /-- The parameter that was named last and its value, if that has been read. -/
  pending : Option (Parameter × Option String) := none
  /-- Whether two hyphens have been read. -/
  onlyOperands : Bool := false
  /-- Whether the operand has been read. -/
  hasOperand : Bool := false
  deriving Repr, DecidableEq

/-- The number written with an optional sign, if it is below `2 ^ 32`. -/
def wordArgument? (s : List Char) : Option UInt32 :=
  match s with
  | '+' :: digits => word32? digits
  | '-' :: digits => (word32? digits).filter (· = 0)
  | _ => word32? s

namespace Reading

/-- The setting that a value gives. -/
def settingOf (kind : ParameterKind) (v : String) : Except Refusal Setting :=
  match kind with
  | .path => if v.isEmpty then .error .noValue else .ok (.path v)
  | .word =>
    match wordArgument? v.toList with
    | some n => .ok (.word n)
    | none => .error .badNumber
  | _ => .ok (.text v)

/-- Records what a parameter is given. -/
def set (r : Reading) (p : Parameter) (v : Option String) : Except Refusal Reading :=
  match v with
  | none => .error .noValue
  | some v =>
    if (r.settings.lookup p.name).isSome then .error .repeated
    else do
      let setting ← settingOf p.kind v
      return { r with settings := (p.name, setting) :: r.settings }

/-- Records what the parameter that was named last is given. -/
def settle (r : Reading) : Except Refusal Reading :=
  match r.pending with
  | none => .ok r
  | some (p, v) => { r with pending := none }.set p v

/-- Reads an option that takes no value. -/
def raise (r : Reading) (p : Parameter) : Except Refusal Reading := do
  let r ← r.settle
  match p.kind with
  | .help => .error .help
  | .version => .error .version
  | .counter =>
    let n := match r.settings.lookup p.name with
      | some (.count n) => n
      | _ => 0
    return { r with settings := (p.name, .count (n + 1)) :: r.settings }
  | _ =>
    if (r.settings.lookup p.name).isSome then .error .repeated
    else return { r with settings := (p.name, .on) :: r.settings }

/-- Reads an option that takes a value, with the value if it is attached. -/
def name (r : Reading) (p : Parameter) (attached : Option String) : Except Refusal Reading := do
  let r ← r.settle
  match attached with
  | some v => r.set p (some v)
  | none => return { r with pending := some (p, none) }

/-- Reads an option that is given by its name, behind the two hyphens. -/
def readLong (g : Grammar) (r : Reading) (s : List Char) : Except Refusal Reading :=
  let word := String.ofList (s.takeWhile (· != '='))
  let attached :=
    match s.dropWhile (· != '=') with
    | [] => none
    | _ :: v => some (String.ofList v)
  match g.options.find? (·.name == word) with
  | none => .error .unknownArgument
  | some p =>
    if p.takesValue then r.name p attached
    else if attached.isSome then .error .unwantedValue
    else r.raise p

/-- Reads options that are given by letters, behind the hyphen. -/
def readLetters (g : Grammar) (r : Reading) : List Char → Except Refusal Reading
  | [] => .ok r
  | c :: rest =>
    match g.options.find? (·.letter == some c) with
    | none => .error .unknownArgument
    | some p =>
      if p.takesValue then
        match rest with
        | [] => r.name p none
        | '=' :: v => r.name p (some (String.ofList v))
        | v => r.name p (some (String.ofList v))
      else do readLetters g (← r.raise p) rest

/-- Reads an argument that is neither an option nor the value of one. -/
def readOperand (g : Grammar) (r : Reading) (argument : String) : Except Refusal Reading :=
  match g.operand with
  | some p =>
    if r.hasOperand then .error .unknownArgument
    else do
      let r ← r.settle
      return { r with pending := some (p, some argument), hasOperand := true }
  | none =>
    if g.commands.isEmpty || (r.onlyOperands && g.commands.contains argument) then
      .error .unknownArgument
    else .error .unknownCommand

/-- Whether the next argument may be the value of the option that was named last. -/
def awaits (r : Reading) : Option Parameter :=
  match r.pending with
  | some (p, none) => some p
  | _ => none

/-- Reads an argument. -/
def read (g : Grammar) (r : Reading) (argument : String) : Except Refusal Reading :=
  if r.onlyOperands then r.readOperand g argument
  else
    let plain (_ : Unit) : Except Refusal Reading :=
      match r.awaits with
      | some p => .ok { r with pending := some (p, some argument) }
      | none => r.readOperand g argument
    match argument.toList with
    | ['-', '-'] => .ok { r with onlyOperands := true }
    | '-' :: '-' :: s => r.readLong g s
    | '-' :: c :: s => r.readLetters g (c :: s)
    | _ => plain ()

/-- Whether an argument names a command that may follow. -/
def namesCommand (g : Grammar) (r : Reading) (argument : String) : Bool :=
  !r.onlyOperands && r.awaits.isNone && g.commands.contains argument

/-- Reads arguments up to the name of a command: what has been read, and the command with the
arguments behind it. -/
def readAll (g : Grammar) (r : Reading) :
    List String → Except Refusal (Reading × Option (String × List String))
  | [] => do return (← r.settle, none)
  | argument :: rest =>
    if r.namesCommand g argument then do return (← r.settle, some (argument, rest))
    else do readAll g (← r.read g argument) rest

/-! ## What was given -/

/-- Whether a flag was given. -/
def isOn (r : Reading) (name : String) : Bool :=
  r.settings.lookup name == some .on

/-- How often a counter was given, if it was. -/
def count? (r : Reading) (name : String) : Option Nat :=
  match r.settings.lookup name with
  | some (.count n) => some n
  | _ => none

/-- The path that was given. -/
def path? (r : Reading) (name : String) : Option String :=
  match r.settings.lookup name with
  | some (.path s) => some s
  | _ => none

/-- The text that was given. -/
def text? (r : Reading) (name : String) : Option String :=
  match r.settings.lookup name with
  | some (.text s) => some s
  | _ => none

/-- The number that was given. -/
def word? (r : Reading) (name : String) : Option UInt32 :=
  match r.settings.lookup name with
  | some (.word n) => some n
  | _ => none

end Reading

end Acceptance
