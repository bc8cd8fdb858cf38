import Mathlib.Data.List.Basic
import Acceptance.Proofs.Check.Generated
import Acceptance.Proofs.CommandLine.Configured
import Acceptance.Proofs.CommandLine.World

/-!
# Generating from the command line

A request to generate either fails, and then nothing has changed, or one text is emitted: written to
the file at the target, or printed. It is the source for the plan under the options of the request,
and a check judges that text and no other one.

The effects can be taken one by one, as far as they get: printing as soon as there is something to
print comes to the same as printing at the end, since nothing fails any more once a text is printed.

Main results:

* `GenerateRequest.hasOptions_configFor`: an option has the value of its flag, else of the
  configuration, else its default.
* `eval_generateStepwise`: printing at once.
* `eval_execute_of_code`: what a request does once there is a text.
* `execute_generate`: all cases together.
-/

namespace Acceptance

open Effect
open Command (configFor execute readConfig readText run runGenerate writeText)

variable {σ : Type}

/-! ## Specification -/

/-- What the configuration file of a request says about an option of generation. -/
def FileSystem.said? (fs : FileSystem σ) (s : σ) (path? : Option String) (place : ℕ)
    (name : String) : Option Toml := do
  let path ← path?
  let document ← (fs.read s path).toOption
  Config.generationField? document place name

/-- The value of an option: that of its flag, else the one in the file, else the default. -/
def prevailing? {α : Type} (flag? : Option α) (value? : Toml → Option α) (said? : Option Toml)
    (default : α) : Option α :=
  match flag? with
  | some a => some a
  | none => Toml.defaulted? default value? said?

/-- The options of a request, where its configuration file says what is given. No flag sets the
affix. -/
structure GenerateRequest.HasOptions (r : GenerateRequest) (said? : ℕ → String → Option Toml)
    (o : Options) : Prop where
  codeunitId : prevailing? r.codeunitId Toml.word32Value? (said? 0 "codeunit_id") 50100 =
    some o.codeunitId
  codeunitName : prevailing? (r.codeunitName.map some) (fun v => (Toml.textValue? v).map some)
    (said? 1 "codeunit_name") none = some o.codeunitName
  libraryCodeunit : prevailing? r.libraryCodeunit Toml.textValue? (said? 2 "library_codeunit")
    "LibraryApprovedSupplier182FDW" = some o.libraryCodeunit
  objectAffix : prevailing? none Toml.textValue? (said? 3 "object_affix") "182" =
    some o.objectAffix

/-- Why a request fails. -/
inductive GenerateRequest.Fails (fs : FileSystem σ) (s : σ) (r : GenerateRequest) :
    Failure → Prop where
  /-- The configuration cannot be read or is malformed. -/
  | config {failure : Failure} (h : fs.LacksConfig s r.config failure) : Fails fs s r failure
  | plan {cause : FileError} (h : fs.read s r.plan = .error cause) :
      Fails fs s r ⟨none, .io r.plan cause⟩
  | options {o : Options} {cause : OptionsError} (ho : r.HasOptions (fs.said? s r.config) o)
      (h : o.validate = .error cause) :
      Fails fs s r ⟨some s!"generating from {r.plan}", .options cause⟩
  | target {o : Options} {document path : String} {cause : FileError}
      (ho : r.HasOptions (fs.said? s r.config) o) (hplan : fs.read s r.plan = .ok document)
      (hpath : r.output = some path)
      (h : fs.write s path (generate o (Plan.read document)) = .error cause) :
      Fails fs s r ⟨none, .io path cause⟩

/-- The messages of the check of a request: the issues of the text that was emitted, and their
totals. -/
def GenerateRequest.messages (r : GenerateRequest) (code : String) : String :=
  if r.check then
    Output.lines ((validate code).issues.map Issue.display ++ [(validate code).summary.display])
  else ""

/-- The verdict of a request on the text that was emitted. -/
def GenerateRequest.verdict (r : GenerateRequest) (code : String) : Bool :=
  !r.check || (validate code).summary.passed

/-- What a request does when it emits a text: it changes the file at its target and no other one, or
prints the text and changes no file. Besides it prints the messages of its check. -/
structure GenerateRequest.Emits (fs : FileSystem σ) (r : GenerateRequest) (code : String)
    (w v : World σ) : Prop where
  printed : r.output = none → v.files = w.files ∧ v.stdout = w.stdout ++ code
  written : ∀ path ∈ r.output, v.stdout = w.stdout ∧
    ∃ file, fs.file? w.files path = some file ∧ fs.bytes? v.files file = some code.toUTF8 ∧
      ∀ other, other ≠ file → fs.bytes? v.files other = fs.bytes? w.files other
  messages : v.stderr = w.stderr ++ r.messages code

/-- Generates effect by effect: what is printed is printed as soon as it is there. -/
def generateStepwise (fs : FileSystem σ) (r : GenerateRequest) :
    Effect (World σ) Bool := do
  let config := configFor r (← readConfig fs.ofWorld.access r.config)
  let plan := Plan.read (← readText fs.ofWorld.access r.plan)
  match config.generate plan with
  | .error cause => throw { doing := some s!"generating from {r.plan}", cause := .options cause }
  | .ok code =>
    match r.output with
    | some path => writeText fs.ofWorld.access path code
    | none => modify (World.print code "")
    if r.check then
      let report := config.validate code
      modify (World.print "" (Output.issues report))
      return report.summary.passed
    else return true

/-! ## Options -/

namespace GenerateRequest

variable {r : GenerateRequest} {fs : FileSystem σ} {s : σ} {c : Config}

theorem prevailing?_eq {α : Type} {flag? : Option α} {value? : Toml → Option α}
    {said? : Option Toml} {default a : α} (h : Toml.defaulted? default value? said? = some a) :
    prevailing? flag? value? said? default = some (flag?.getD a) := by
  cases flag? with
  | none => exact h
  | some b => rfl

/-- Without a file, or with one that says nothing, every option has its default. -/
theorem areGiven_of_hasConfig (h : fs.HasConfig s r.config c) :
    c.generation.AreGiven (fs.said? s r.config) := by
  cases hr : r.config with
  | none =>
    rw [hr] at h
    cases h
    exact ⟨rfl, rfl, rfl, rfl⟩
  | some path =>
    rw [hr] at h
    cases h with
    | @file _ document _ hread hc =>
      have hsaid : fs.said? s (some path) = Config.generationField? document := by
        funext place name
        rw [FileSystem.said?, Option.bind_eq_bind, Option.bind_some, hread]
        rfl
      rw [hsaid]
      exact Config.areGiven_of_read? hc

theorem HasOptions.eq {said? : ℕ → String → Option Toml} {o p : Options}
    (ho : r.HasOptions said? o) (hp : r.HasOptions said? p) : o = p := by
  obtain ⟨oid, oname, olibrary, oaffix⟩ := o
  obtain ⟨pid, pname, plibrary, paffix⟩ := p
  obtain rfl := Option.some.inj (ho.codeunitId.symm.trans hp.codeunitId)
  obtain rfl := Option.some.inj (ho.codeunitName.symm.trans hp.codeunitName)
  obtain rfl := Option.some.inj (ho.libraryCodeunit.symm.trans hp.libraryCodeunit)
  obtain rfl := Option.some.inj (ho.objectAffix.symm.trans hp.objectAffix)
  rfl

/-- The options that a request is run under are those that its flags and its file give. -/
theorem hasOptions_configFor (h : fs.HasConfig s r.config c) :
    r.HasOptions (fs.said? s r.config) (configFor r c).generation := by
  have hgiven := areGiven_of_hasConfig h
  constructor
  · exact prevailing?_eq hgiven.codeunitId
  · rw [prevailing?_eq hgiven.codeunitName]
    cases hname : r.codeunitName with
    | none => rw [configFor, hname]; rfl
    | some name => rw [configFor, hname]; rfl
  · exact prevailing?_eq hgiven.libraryCodeunit
  · exact hgiven.objectAffix

end GenerateRequest

/-! ## Effects -/

section Effects

variable {fs : FileSystem σ} {w : World σ} {r : GenerateRequest}

/-- Printing at once comes to the same as printing at the end. -/
theorem eval_generateStepwise (fs : FileSystem σ) (r : GenerateRequest) (w : World σ) :
    eval (generateStepwise fs r) w = eval (execute fs (.generate r)) w := by
  simp only [generateStepwise, execute, run, runGenerate, eval_bind]
  rcases eval (readConfig fs.ofWorld.access r.config) w with ⟨failure | config, v⟩
  · rfl
  simp only
  rcases eval (readText fs.ofWorld.access r.plan) v with ⟨failure | document, v⟩
  · rfl
  simp only
  cases (configFor r config).generate (Plan.read document) with
  | error cause => rfl
  | ok code =>
    cases r.output with
    | some path =>
      simp only [eval_bind]
      rcases eval (writeText fs.ofWorld.access path code) v with ⟨failure | _, v⟩
      · rfl
      cases r.check with
      | true => simp only [if_true, eval_bind, eval_pure, eval_modify]
      | false => simp [eval_pure, eval_modify]
    | none =>
      cases r.check with
      | true =>
        simp only [if_true, eval_bind, eval_pure, eval_modify, World.print_print,
          String.append_empty, String.empty_append]
      | false => rfl

theorem eval_execute_of_lacksConfig {failure : Failure} (h : fs.LacksConfig w.files r.config failure) :
    eval (execute fs (.generate r)) w = (.error failure, w) := by
  simp only [execute, run, runGenerate, eval_bind, FileSystem.eval_readConfig_of_lacks h.ofWorld]

theorem eval_execute_of_unread {c : Config} (hc : fs.HasConfig w.files r.config c)
    {cause : FileError} (h : fs.read w.files r.plan = .error cause) :
    eval (execute fs (.generate r)) w = (.error ⟨none, .io r.plan cause⟩, w) := by
  have hplan : fs.ofWorld.read w r.plan = .error cause := h
  simp only [execute, run, runGenerate, eval_bind, FileSystem.eval_readConfig hc.ofWorld,
    FileSystem.eval_readText_error hplan]

section Read

variable {c : Config} {document : String}

/-- The outcome of a request that has emitted a text, where `stdout` is what is left to print. -/
theorem eval_outcome (r : GenerateRequest) (c : Config) (code stdout : String) (w : World σ) :
    eval (if r.check then
        (pure { stdout, stderr := Output.issues (c.validate code),
                passed := (c.validate code).summary.passed } : Effect (World σ) Outcome)
      else pure { stdout }) w =
      (.ok { stdout, stderr := r.messages code, passed := r.verdict code }, w) := by
  unfold GenerateRequest.messages GenerateRequest.verdict
  cases r.check with
  | true => rfl
  | false => rfl

theorem eval_execute_of_rejected (hc : fs.HasConfig w.files r.config c)
    (hp : fs.read w.files r.plan = .ok document) {cause : OptionsError}
    (h : (configFor r c).generation.validate = .error cause) :
    eval (execute fs (.generate r)) w =
      (.error ⟨some s!"generating from {r.plan}", .options cause⟩, w) := by
  have hplan : fs.ofWorld.read w r.plan = .ok document := hp
  have hgenerate : (configFor r c).generate (Plan.read document) = .error cause := by
    rw [Config.generate, h]
  simp only [execute, run, runGenerate, eval_bind, FileSystem.eval_readConfig hc.ofWorld,
    FileSystem.eval_readText hplan, hgenerate, eval_throw]

/-- What a request does once there is a text: the last thing that can fail is writing it. -/
theorem eval_execute_of_code (hc : fs.HasConfig w.files r.config c)
    (hp : fs.read w.files r.plan = .ok document) {code : String}
    (h : (configFor r c).generate (Plan.read document) = .ok code) :
    eval (execute fs (.generate r)) w = match r.output with
      | none => (.ok (r.verdict code), w.print code (r.messages code))
      | some path => match fs.write w.files path code with
        | .error cause => (.error ⟨none, .io path cause⟩, w)
        | .ok files => (.ok (r.verdict code), { w with files }.print "" (r.messages code)) := by
  have hplan : fs.ofWorld.read w r.plan = .ok document := hp
  simp only [execute, run, runGenerate, eval_bind, FileSystem.eval_readConfig hc.ofWorld,
    FileSystem.eval_readText hplan, h]
  cases r.output with
  | none =>
    simp only [eval_bind, eval_pure]
    rw [eval_outcome]
    rfl
  | some path =>
    cases hwrite : fs.write w.files path code with
    | error cause =>
      have hworld : fs.ofWorld.write w path code = .error cause := by
        rw [FileSystem.write_ofWorld, hwrite]
        rfl
      simp only [hwrite, eval_bind, FileSystem.eval_writeText_error hworld]
    | ok files =>
      have hworld : fs.ofWorld.write w path code = .ok { w with files } := by
        rw [FileSystem.write_ofWorld, hwrite]
        rfl
      simp only [hwrite, eval_bind, FileSystem.eval_writeText hworld, eval_pure]
      rw [eval_outcome]
      rfl

end Read

/-- There is no reason to fail once everything is read and accepted and the text is written. -/
theorem not_fails {c : Config} {document : String} (hc : fs.HasConfig w.files r.config c)
    (hp : fs.read w.files r.plan = .ok document)
    (hv : (configFor r c).generation.validate = .ok ())
    (ht : ∀ path ∈ r.output, ∃ files, fs.write w.files path
      (generate (configFor r c).generation (Plan.read document)) = .ok files)
    (failure : Failure) : ¬r.Fails fs w.files failure := by
  have hoptions := GenerateRequest.hasOptions_configFor hc
  intro h
  cases h with
  | config hl => exact hc.not_lacksConfig hl
  | plan h => exact absurd (hp.symm.trans h) nofun
  | options ho h =>
    rw [ho.eq hoptions, hv] at h
    cases h
  | target ho hplan hpath h =>
    obtain ⟨files, hfiles⟩ := ht _ hpath
    obtain rfl := Except.ok.inj (hp.symm.trans hplan)
    rw [ho.eq hoptions, hfiles] at h
    cases h

end Effects

namespace GenerateRequest

variable {fs : FileSystem σ} {r : GenerateRequest} {w : World σ}

theorem emits_print (h : r.output = none) (code : String) (w : World σ) :
    r.Emits fs code w (w.print code (r.messages code)) where
  printed := fun _ => ⟨rfl, rfl⟩
  written := by
    rw [h]
    exact nofun
  messages := rfl

theorem emits_write {path code : String} {files : σ} (h : r.output = some path)
    (hw : fs.write w.files path code = .ok files) :
    r.Emits fs code w ({ w with files }.print "" (r.messages code)) where
  printed := by
    rw [h]
    exact nofun
  written := by
    rw [h]
    rintro _ ⟨⟩
    exact ⟨String.append_empty, fs.write_spec hw⟩
  messages := rfl

/-- Only a check can find fault, and only with errors. -/
theorem verdict_iff (r : GenerateRequest) (code : String) :
    r.verdict code = true ↔
      (r.check = true → ∀ i ∈ (validate code).issues, i.isError = false) := by
  rw [verdict, Bool.or_eq_true, Results.passed_iff]
  cases r.check <;> simp

end GenerateRequest

/-! ## All cases -/

/-- A request that fails has a reason, which it names, and changes nothing. Otherwise there is no
reason to fail, and it emits the source for its plan under its options, which are accepted. -/
theorem execute_generate (fs : FileSystem σ) (r : GenerateRequest) (w : World σ) :
    eval (generateStepwise fs r) w = eval (execute fs (.generate r)) w ∧
      ((∃ failure, r.Fails fs w.files failure ∧
          eval (execute fs (.generate r)) w = (.error failure, w)) ∨
        (∀ failure, ¬r.Fails fs w.files failure) ∧
          ∃ (o : Options) (document : String) (passed : Bool) (v : World σ),
            r.HasOptions (fs.said? w.files r.config) o ∧ o.validate = .ok () ∧
              fs.read w.files r.plan = .ok document ∧
              eval (execute fs (.generate r)) w = (.ok passed, v) ∧
              r.Emits fs (generate o (Plan.read document)) w v ∧
              (passed = true ↔ (r.check = true →
                ∀ i ∈ (validate (generate o (Plan.read document))).issues,
                  i.isError = false))) := by
  refine ⟨eval_generateStepwise fs r w, ?_⟩
  rcases fs.hasConfig_or_lacksConfig w.files r.config with ⟨c, hc⟩ | ⟨failure, hlacks⟩
  case inr => exact .inl ⟨failure, .config hlacks, eval_execute_of_lacksConfig hlacks⟩
  have hoptions := GenerateRequest.hasOptions_configFor hc
  cases hp : fs.read w.files r.plan with
  | error cause => exact .inl ⟨_, .plan hp, eval_execute_of_unread hc hp⟩
  | ok document =>
  cases hv : (configFor r c).generation.validate with
  | error cause => exact .inl ⟨_, .options hoptions hv, eval_execute_of_rejected hc hp hv⟩
  | ok u =>
  have hgenerate : (configFor r c).generate (Plan.read document) =
      .ok (generate (configFor r c).generation (Plan.read document)) := by
    rw [Config.generate, hv]
  have heval := eval_execute_of_code hc hp hgenerate
  have hnot := not_fails hc hp hv
  -- the last thing that can fail is writing the text
  cases ho : r.output with
  | none =>
    rw [ho] at heval hnot
    exact .inr ⟨hnot nofun, _, document, _, _, hoptions, hv, rfl, heval,
      GenerateRequest.emits_print ho _ w, GenerateRequest.verdict_iff r _⟩
  | some path =>
    rw [ho] at heval hnot
    cases hw : fs.write w.files path
        (generate (configFor r c).generation (Plan.read document)) with
    | error cause =>
      simp only [hw] at heval
      exact .inl ⟨_, .target hoptions hp ho hw, heval⟩
    | ok files =>
      simp only [hw] at heval
      have hwritten : ∀ target ∈ some path, ∃ files, fs.write w.files target
          (generate (configFor r c).generation (Plan.read document)) = .ok files := by
        rintro _ ⟨⟩
        exact ⟨files, hw⟩
      exact .inr ⟨hnot hwritten, _, document, _, _, hoptions, hv, rfl, heval,
        GenerateRequest.emits_write ho hw, GenerateRequest.verdict_iff r _⟩

/-- A directory with a configuration and a plan. -/
def cardDirectory : Directory where
  files := [("atdd.toml", "[generation]\ncodeunit_id = 60000\nobject_affix = \"7\"\n".toUTF8),
    ("plan.md", "**Work Item**: 12 - Cards\n## Scenario 1: Posting\n- **Given** a card".toUTF8)]

/-- Arguments that set one option and leave the others to the configuration. -/
def cardArguments : List String :=
  ["generate", "plan.md", "--config=atdd.toml", "--codeunit-name", "CardTests", "-o", "./cards.al",
    "--check"]

/-- The request of the arguments. -/
def cardRequest : GenerateRequest where
  plan := "plan.md"
  codeunitName := some "CardTests"
  config := some "atdd.toml"
  output := some "./cards.al"
  check := true

theorem execute_generate_cardRequest :
    (Invocation.ofArguments cardArguments).toOption = some ⟨.generate cardRequest, 0, false⟩ ∧
      ∃ (document : String) (passed : Bool) (v : World Directory),
        eval (execute Directory.fileSystem (.generate cardRequest)) ⟨cardDirectory, "", ""⟩ =
            (.ok passed, v) ∧
          cardRequest.Emits Directory.fileSystem
            (generate ⟨60000, some "CardTests", "LibraryApprovedSupplier182FDW", "7"⟩
              (Plan.read document)) ⟨cardDirectory, "", ""⟩ v := by
  have hread : Directory.fileSystem.read cardDirectory "atdd.toml" =
      .ok "[generation]\ncodeunit_id = 60000\nobject_affix = \"7\"\n" := by
    decide +kernel
  have hconfig : Directory.fileSystem.HasConfig cardDirectory cardRequest.config
      ⟨⟨60000, none, "LibraryApprovedSupplier182FDW", "7"⟩, false⟩ :=
    .file hread (by decide +kernel)
  have hplan : Directory.fileSystem.read cardDirectory cardRequest.plan =
      .ok "**Work Item**: 12 - Cards\n## Scenario 1: Posting\n- **Given** a card" := by
    decide +kernel
  have htarget : cardDirectory.target "./cards.al" = .file "cards.al" := by decide +kernel
  have hnot := not_fails (w := ⟨cardDirectory, "", ""⟩) hconfig hplan (by decide +kernel) (by
    rintro _ ⟨⟩
    exact ⟨_, Directory.write_of_target htarget _⟩)
  rcases (execute_generate Directory.fileSystem cardRequest ⟨cardDirectory, "", ""⟩).2 with
    ⟨failure, hfails, -⟩ | ⟨-, o, document, passed, v, ho, -, -, heval, hemits, -⟩
  · exact absurd hfails (hnot failure)
  · obtain rfl := ho.eq (GenerateRequest.hasOptions_configFor hconfig)
    exact ⟨by decide +kernel, document, passed, v, heval, hemits⟩

end Acceptance
