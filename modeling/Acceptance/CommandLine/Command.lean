import Acceptance.CommandLine.Argument

/-!
# Commands

There are five commands. Each asks for help like the program itself, and takes the options for
logging, which may also stand in front of the command; what stands behind it counts more.
-/

namespace Acceptance

/-- What to generate, and where from and to. -/
structure GenerateRequest where
  plan : String
  codeunitId : Option UInt32 := none
  codeunitName : Option String := none
  libraryCodeunit : Option String := none
  config : Option String := none
  output : Option String := none
  /-- Whether the generated source is validated. -/
  check : Bool := false
  deriving Repr, DecidableEq

/-- What to validate, and how. -/
structure ValidateRequest where
  file : String
  json : Bool := false
  failOnWarnings : Bool := false
  config : Option String := none
  deriving Repr, DecidableEq

/-- A command with its arguments. -/
inductive Command where
  | parse (plan : String) (json : Bool)
  | generate (request : GenerateRequest)
  | validate (request : ValidateRequest)
  | rules (json : Bool)
  | conventions
  deriving Repr, DecidableEq

/-- A command and the options for logging. -/
structure Invocation where
  command : Command
  /-- How often more output was asked for. -/
  verbosity : Nat := 0
  logJson : Bool := false
  deriving Repr, DecidableEq

/-- Model of `default_directive`: the level of logging. -/
def Invocation.level (i : Invocation) : String :=
  match i.verbosity with
  | 0 => "warn"
  | 1 => "info"
  | 2 => "debug"
  | _ => "trace"

namespace Grammar

/-- The options that every command takes. -/
def common : List Parameter :=
  [{ name := "verbose", letter := some 'v', kind := .counter },
    { name := "log-json", kind := .flag },
    { name := "help", letter := some 'h', kind := .help }]

def jsonFlag : Parameter := { name := "json", kind := .flag }

def configOption : Parameter := { name := "config", kind := .path }

def planOperand : Parameter := { name := "plan", kind := .path }

/-- The names of the commands. -/
def commandNames : List String :=
  ["parse", "generate", "validate", "rules", "conventions"]

/-- What stands in front of the command: the arguments of `command` itself. -/
def program : Grammar where
  options := { name := "version", letter := some 'V', kind := .version } :: common
  commands := commandNames ++ ["help"]

/-- What stands behind a command: the arguments of the subcommands of `command`. -/
def ofCommand (command : String) : Grammar :=
  match command with
  | "parse" => { options := jsonFlag :: common, operand := some planOperand }
  | "generate" =>
    { options :=
        [{ name := "codeunit-id", kind := .word }, { name := "codeunit-name", kind := .text },
          { name := "library-codeunit", kind := .text }, configOption,
          { name := "output", letter := some 'o', kind := .path },
          { name := "check", kind := .flag }] ++ common
      operand := some planOperand }
  | "validate" =>
    { options := [jsonFlag, { name := "fail-on-warnings", kind := .flag }, configOption] ++ common
      operand := some { name := "file", kind := .path } }
  | "rules" => { options := jsonFlag :: common }
  | _ => { options := common }

end Grammar

namespace Command

/-- The command that arguments ask for. -/
def ofReading (command : String) (r : Reading) : Except Refusal Command :=
  let operand (name : String) : Except Refusal String :=
    match r.path? name with
    | some path => .ok path
    | none => .error .missingOperand
  match command with
  | "parse" => do return .parse (← operand "plan") (r.isOn "json")
  | "generate" => do
    return .generate {
      plan := ← operand "plan"
      codeunitId := r.word? "codeunit-id"
      codeunitName := r.text? "codeunit-name"
      libraryCodeunit := r.text? "library-codeunit"
      config := r.path? "config"
      output := r.path? "output"
      check := r.isOn "check" }
  | "validate" => do
    return .validate {
      file := ← operand "file"
      json := r.isOn "json"
      failOnWarnings := r.isOn "fail-on-warnings"
      config := r.path? "config" }
  | "rules" => .ok (.rules (r.isOn "json"))
  | _ => .ok .conventions

end Command

namespace Invocation

/-- What asking for help on commands gives. -/
def helpOn : List String → Refusal
  | [] => .help
  | [command] => if Grammar.program.commands.contains command then .help else .unknownCommand
  | _ => .unknownCommand

/-- The command that arguments ask for, or why they ask for none. -/
def ofArguments (arguments : List String) : Except Refusal Invocation := do
  let (outer, command) ← Reading.readAll Grammar.program {} arguments
  match command with
  | none => .error (if outer.settings.isEmpty then .nothingGiven else .missingCommand)
  | some ("help", rest) => .error (helpOn rest)
  | some (name, rest) =>
    let (inner, _) ← Reading.readAll (Grammar.ofCommand name) {} rest
    return {
      command := ← Command.ofReading name inner
      verbosity := ((inner.count? "verbose").or (outer.count? "verbose")).getD 0
      logJson := inner.isOn "log-json" || outer.isOn "log-json" }

end Invocation

end Acceptance
