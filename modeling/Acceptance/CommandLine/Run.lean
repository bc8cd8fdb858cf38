import Acceptance.CommandLine.Command
import Acceptance.CommandLine.Files
import Acceptance.CommandLine.Output
import Acceptance.Toolkit

/-!
# Running commands

A command reads what it needs, in a fixed order, and prints only once nothing can fail any more. A
check that does not pass is no failure. The options of a command line count more than the
configuration, which counts more than the defaults.
-/

namespace Acceptance

/-- Model of `AtddError`: why a command fails. -/
inductive FailureCause where
  | options (cause : OptionsError)
  | io (path : String) (cause : FileError)
  /-- A document that is no configuration. -/
  | config (path : String)
  deriving Repr, DecidableEq

namespace FailureCause

/-- The cause in words. -/
def message : FailureCause → String
  | options cause => s!"invalid generation options: {cause.message}"
  | io path cause => s!"i/o error on {path}: {cause.message}"
  | config path => s!"invalid configuration in {path}"

/-- The cause in words, with what lies behind it. -/
def chain : FailureCause → List String
  | options cause => [message (options cause), cause.message]
  | io path cause => [message (io path cause), cause.message]
  | config path => [message (config path)]

/-- Model of `is_usage`: whether the options or the configuration are at fault. -/
def isUsage : FailureCause → Bool
  | options _ => true
  | io _ _ => false
  | config _ => true

end FailureCause

/-- A failure and what was being done. -/
structure Failure where
  doing : Option String := none
  cause : FailureCause
  deriving Repr, DecidableEq

/-- The failure in words. -/
def Failure.message (f : Failure) : String :=
  ": ".intercalate (f.doing.toList ++ f.cause.chain)

/-- What a command prints, and whether its check passed. -/
structure Outcome where
  stdout : String := ""
  stderr : String := ""
  passed : Bool := true
  deriving Repr, DecidableEq

namespace Command

variable {m : Type → Type} [Monad m]

/-- Model of `read`: the text of a file. -/
def readText (files : Files m) (path : String) : ExceptT Failure m String := do
  match ← (files.read path : m _) with
  | .ok s => return s
  | .error cause => throw { cause := .io path cause }

/-- Model of `load_config`: the configuration in a file, or the default. -/
def readConfig (files : Files m) (path : Option String) : ExceptT Failure m Config := do
  let doing := some "loading configuration"
  match path with
  | none => return {}
  | some path =>
    match ← (files.read path : m _) with
    | .error cause => throw { doing, cause := .io path cause }
    | .ok document =>
      match Config.read? document with
      | some c => return c
      | none => throw { doing, cause := .config path }

/-- Writes a text to a file. -/
def writeText (files : Files m) (path text : String) : ExceptT Failure m Unit := do
  match ← (files.write path text : m _) with
  | .ok () => return ()
  | .error cause => throw { cause := .io path cause }

/-- The configuration with the options of the request in place of its own. -/
def configFor (r : GenerateRequest) (c : Config) : Config :=
  { c with
    generation := { c.generation with
      codeunitId := r.codeunitId.getD c.generation.codeunitId
      codeunitName := r.codeunitName.or c.generation.codeunitName
      libraryCodeunit := r.libraryCodeunit.getD c.generation.libraryCodeunit } }

/-- Model of `generate`: generates a test codeunit. -/
def runGenerate (files : Files m) (r : GenerateRequest) : ExceptT Failure m Outcome := do
  let config := configFor r (← readConfig files r.config)
  let plan := Plan.read (← readText files r.plan)
  match config.generate plan with
  | .error cause => throw { doing := some s!"generating from {r.plan}", cause := .options cause }
  | .ok code =>
    let stdout ← match r.output with
      | some path => writeText files path code; pure ""
      | none => pure code
    if r.check then
      let report := config.validate code
      return { stdout, stderr := Output.issues report, passed := report.summary.passed }
    else return { stdout }

/-- Model of `validate`: validates a source. -/
def runValidate (files : Files m) (r : ValidateRequest) : ExceptT Failure m Outcome := do
  let config ← readConfig files r.config
  let config := { config with failOnWarnings := config.failOnWarnings || r.failOnWarnings }
  let report := config.validate (← readText files r.file)
  return {
    stdout := if r.json then Output.json report.toJson else Output.issues report
    passed := report.accepted }

/-- Model of `run`: runs a command. -/
def run (files : Files m) : Command → ExceptT Failure m Outcome
  | .parse path json => do
    let plan := Plan.read (← readText files path)
    return { stdout := if json then Output.json plan.toJson else Output.plan plan }
  | .generate request => runGenerate files request
  | .validate request => runValidate files request
  | .rules json =>
    return { stdout := if json then Output.json Rule.catalogToJson else Output.rules }
  | .conventions => return { stdout := Output.conventions }

end Command

end Acceptance
