import Acceptance.CommandLine.Run

/-!
# The program

Runs the command of the arguments on the files of the system. The exit code is 0 if a check passed,
1 if it did not, and 2 for a failure or for arguments that ask for no command.
-/

namespace Acceptance

/-- The cause that the system gives. -/
def FileError.ofSystem : IO.Error → FileError
  | .noFileOrDirectory .. => .notFound
  | .inappropriateType _ 21 _ => .isDirectory
  | .inappropriateType _ 20 _ => .notDirectory
  | e => .other (toString e)

/-- The files of the system. -/
def systemFiles : Files IO where
  read path := do
    match ← (IO.FS.readBinFile path).toBaseIO with
    | .error e => return .error (.ofSystem e)
    | .ok bytes =>
      match String.fromUTF8? bytes with
      | some s => return .ok s
      | none => return .error .notText
  write path text := do
    match ← (IO.FS.writeFile path text).toBaseIO with
    | .error e => return .error (.ofSystem e)
    | .ok () => return .ok ()

/-- How the program is called. -/
def usage : String :=
  Output.lines
    ["Usage: atdd [-v] [--log-json] <COMMAND>", "", "Commands:",
      "  parse <PLAN> [--json]",
      "  generate <PLAN> [--codeunit-id <N>] [--codeunit-name <NAME>]",
      "      [--library-codeunit <NAME>] [--config <FILE>] [-o <FILE>] [--check]",
      "  validate <FILE> [--json] [--fail-on-warnings] [--config <FILE>]",
      "  rules [--json]",
      "  conventions"]

/-- Why arguments are refused, in words. -/
def Refusal.message : Refusal → String
  | help => "help"
  | nothingGiven => "nothing to do"
  | version => "version"
  | unknownCommand => "unrecognized subcommand"
  | missingCommand => "a subcommand is required"
  | missingOperand => "a required argument is missing"
  | unknownArgument => "unexpected argument"
  | repeated => "an argument is given more than once"
  | badNumber => "a value is not a number in range"
  | noValue => "a value is required"
  | unwantedValue => "a value is given to an argument that takes none"

/-- Says why no command runs. -/
def refuse (r : Refusal) : IO UInt32 := do
  match r with
  | .help => IO.print usage; return 0
  | .version => IO.println "atdd 0.1.0"; return 0
  | .nothingGiven => IO.eprint usage; return 2
  | r => IO.eprintln s!"error: {r.message}"; IO.eprint usage; return 2

end Acceptance

open Acceptance

/-- Runs the program. -/
def main (arguments : List String) : IO UInt32 := do
  match Invocation.ofArguments arguments with
  | .error r => refuse r
  | .ok i =>
    match ← (Command.run systemFiles i.command).run with
    | .error failure =>
      IO.eprintln s!"error: {failure.message}"
      return 2
    | .ok outcome =>
      IO.print outcome.stdout
      IO.eprint outcome.stderr
      return if outcome.passed then 0 else 1
