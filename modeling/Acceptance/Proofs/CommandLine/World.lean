import Mathlib.Data.List.Basic
import Acceptance.CommandLine.Run

/-!
# Commands and the world around them

What a command does is described on a state of all files. Reading changes nothing, and writing a text
to a path either fails and changes nothing or changes the file at the path alone. A world has files
and what has been printed.

Main results:

* `eval_bind`: one effect after another.
* `eval_readText`, `eval_readConfig`, `eval_writeText`: the effects on files.
* `Directory.fileSystem`: a directory is an instance.
-/

namespace Acceptance

/-! ## Specification -/

/-- The files of a system, where `σ` are the states that they can be in. -/
structure FileSystem (σ : Type) where
  /-- What tells files apart. -/
  File : Type
  read : σ → String → Except FileError String
  /-- The state after a text was written to a path. -/
  write : σ → String → String → Except FileError σ
  /-- The file that a path leads to. -/
  file? : σ → String → Option File
  bytes? : σ → File → Option ByteArray
  /-- Writing changes the file at the path and no other one. -/
  write_spec : ∀ {s t : σ} {path text : String}, write s path text = .ok t →
    ∃ file, file? s path = some file ∧ bytes? t file = some text.toUTF8 ∧
      ∀ other, other ≠ file → bytes? t other = bytes? s other

/-- Files and what has been printed. -/
structure World (σ : Type) where
  files : σ
  stdout : String := ""
  stderr : String := ""

variable {σ : Type}

namespace FileSystem

/-- Reading and writing files of a state that is changed on the way. -/
def access (fs : FileSystem σ) : Files (StateM σ) where
  read path := do return fs.read (← get) path
  write path text := do
    match fs.write (← get) path text with
    | .ok s => set s; return .ok ()
    | .error cause => return .error cause

/-- The files of a world. -/
def ofWorld (fs : FileSystem σ) : FileSystem (World σ) where
  File := fs.File
  read w := fs.read w.files
  write w path text := (fs.write w.files path text).map fun files => { w with files }
  file? w := fs.file? w.files
  bytes? w := fs.bytes? w.files
  write_spec := by
    intro w v path text h
    cases hw : fs.write w.files path text with
    | error cause =>
      rw [hw] at h
      cases h
    | ok files =>
      rw [hw] at h
      cases h
      exact fs.write_spec hw

theorem write_ofWorld (fs : FileSystem σ) (w : World σ) (path text : String) :
    fs.ofWorld.write w path text = (fs.write w.files path text).map fun files => { w with files } :=
  rfl

end FileSystem

/-- What can fail, on states that are changed on the way. -/
abbrev Effect (σ α : Type) := ExceptT Failure (StateM σ) α

/-- What an effect gives in a state, and the state behind it. -/
def Effect.eval {α : Type} (x : Effect σ α) (s : σ) : Except Failure α × σ :=
  (x.run.run s).run

/-- Prints texts. -/
def World.print (stdout stderr : String) (w : World σ) : World σ :=
  { w with stdout := w.stdout ++ stdout, stderr := w.stderr ++ stderr }

@[simp] theorem World.print_empty (w : World σ) : w.print "" "" = w := by
  simp [print]

@[simp] theorem World.print_print (stdout stderr stdout' stderr' : String) (w : World σ) :
    (w.print stdout stderr).print stdout' stderr' = w.print (stdout ++ stdout') (stderr ++ stderr') := by
  simp [print, String.append_assoc]

/-- Runs a command on the files of the world, prints what it gives and says whether its check
passed. -/
def Command.execute (fs : FileSystem σ) (c : Command) : Effect (World σ) Bool := do
  let outcome ← Command.run fs.ofWorld.access c
  modify (World.print outcome.stdout outcome.stderr)
  return outcome.passed

/-! ## Effects -/

namespace Effect

variable {α β : Type} {s : σ}

theorem eval_pure (a : α) : eval (pure a : Effect σ α) s = (.ok a, s) := rfl

theorem eval_throw (failure : Failure) :
    eval (throw failure : Effect σ α) s = (.error failure, s) := rfl

theorem eval_modify (f : σ → σ) : eval (modify f : Effect σ Unit) s = (.ok (), f s) := rfl

theorem eval_lift (x : StateM σ α) :
    eval (liftM x : Effect σ α) s = (.ok (x.run s).run.1, (x.run s).run.2) := rfl

/-- One effect after another one: the second one only if the first one has not failed. -/
theorem eval_bind (x : Effect σ α) (f : α → Effect σ β) :
    eval (x >>= f) s = match eval x s with
      | (.ok a, t) => eval (f a) t
      | (.error failure, t) => (.error failure, t) := by
  show StateT.run (ExceptT.run x >>= ExceptT.bindCont f) s = _
  unfold eval
  rw [StateT.run_bind]
  show (match (StateT.run (ExceptT.run x) s) with | (a, t) => StateT.run (ExceptT.bindCont f a) t) = _
  rcases StateT.run (ExceptT.run x) s with ⟨a | a, t⟩ <;> rfl

end Effect

/-! ## Configurations -/

namespace FileSystem

variable {fs : FileSystem σ} {s : σ} {path : String} {document : String} {cause : FileError}

/-- The configuration that a request asks for: the one in its file, or the default. -/
inductive HasConfig (fs : FileSystem σ) (s : σ) : Option String → Config → Prop where
  | default : HasConfig fs s none {}
  | file {path document : String} {c : Config} (hread : fs.read s path = .ok document)
      (hc : Config.read? document = some c) : HasConfig fs s (some path) c

/-- Why there is no configuration: its file cannot be read, or holds none. -/
inductive LacksConfig (fs : FileSystem σ) (s : σ) : Option String → Failure → Prop where
  | unread {path : String} {cause : FileError} (hread : fs.read s path = .error cause) :
      LacksConfig fs s (some path) ⟨some "loading configuration", .io path cause⟩
  | malformed {path document : String} (hread : fs.read s path = .ok document)
      (hc : Config.read? document = none) :
      LacksConfig fs s (some path) ⟨some "loading configuration", .config path⟩

theorem hasConfig_or_lacksConfig (fs : FileSystem σ) (s : σ) (path : Option String) :
    (∃ c, fs.HasConfig s path c) ∨ ∃ failure, fs.LacksConfig s path failure := by
  cases path with
  | none => exact .inl ⟨{}, .default⟩
  | some path =>
    cases hread : fs.read s path with
    | error cause => exact .inr ⟨_, .unread hread⟩
    | ok document =>
      cases hc : Config.read? document with
      | none => exact .inr ⟨_, .malformed hread hc⟩
      | some c => exact .inl ⟨c, .file hread hc⟩

theorem HasConfig.not_lacksConfig {path : Option String} {c : Config} {failure : Failure}
    (h : fs.HasConfig s path c) : ¬fs.LacksConfig s path failure := by
  intro hl
  cases h with
  | default => cases hl
  | file hread hc =>
    cases hl with
    | unread herror => exact absurd (hread.symm.trans herror) nofun
    | malformed hread' hnone =>
      obtain rfl := Except.ok.inj (hread.symm.trans hread')
      exact absurd (hc.symm.trans hnone) nofun

theorem HasConfig.ofWorld {w : World σ} {path : Option String} {c : Config}
    (h : fs.HasConfig w.files path c) : fs.ofWorld.HasConfig w path c := by
  cases h with
  | default => exact .default
  | file hread hc => exact .file hread hc

theorem LacksConfig.ofWorld {w : World σ} {path : Option String} {failure : Failure}
    (h : fs.LacksConfig w.files path failure) : fs.ofWorld.LacksConfig w path failure := by
  cases h with
  | unread hread => exact .unread hread
  | malformed hread hc => exact .malformed hread hc

/-! ## Commands on files -/

open Effect Command

theorem eval_read (fs : FileSystem σ) (s : σ) (path : String) :
    eval (liftM (fs.access.read path) : Effect σ _) s = (.ok (fs.read s path), s) := rfl

theorem eval_write (fs : FileSystem σ) (s : σ) (path text : String) :
    eval (liftM (fs.access.write path text) : Effect σ _) s = match fs.write s path text with
      | .ok t => (.ok (.ok ()), t)
      | .error cause => (.ok (.error cause), s) := by
  rw [eval_lift]
  cases h : fs.write s path text with
  | ok t => simp [access, h]
  | error cause => simp [access, h]

theorem eval_readConfig {path : Option String} {c : Config} (h : fs.HasConfig s path c) :
    eval (readConfig fs.access path) s = (.ok c, s) := by
  cases h with
  | default => rfl
  | file hread hc =>
    simp only [readConfig, eval_bind, eval_read, hread, hc]
    rfl

theorem eval_readConfig_of_lacks {path : Option String} {failure : Failure}
    (h : fs.LacksConfig s path failure) :
    eval (readConfig fs.access path) s = (.error failure, s) := by
  cases h with
  | unread hread =>
    simp only [readConfig, eval_bind, eval_read, hread]
    rfl
  | malformed hread hc =>
    simp only [readConfig, eval_bind, eval_read, hread, hc]
    rfl

theorem eval_readText (h : fs.read s path = .ok document) :
    eval (readText fs.access path) s = (.ok document, s) := by
  simp only [readText, eval_bind, eval_read, h]
  rfl

theorem eval_readText_error (h : fs.read s path = .error cause) :
    eval (readText fs.access path) s = (.error ⟨none, .io path cause⟩, s) := by
  simp only [readText, eval_bind, eval_read, h]
  rfl

theorem eval_writeText {t : σ} {text : String} (h : fs.write s path text = .ok t) :
    eval (writeText fs.access path text) s = (.ok (), t) := by
  simp only [writeText, eval_bind, eval_write, h]
  rfl

theorem eval_writeText_error {text : String} (h : fs.write s path text = .error cause) :
    eval (writeText fs.access path text) s = (.error ⟨none, .io path cause⟩, s) := by
  simp only [writeText, eval_bind, eval_write, h]
  rfl

end FileSystem

/-! ## Directories -/

namespace Directory

theorem lookup_put_of_ne {name other : String} (h : other ≠ name) (content : ByteArray)
    (files : List (String × ByteArray)) :
    (put name content files).lookup other = files.lookup other := by
  have hother : (other == name) = false := beq_eq_false_iff_ne.2 h
  induction files with
  | nil => simp [put, List.lookup_cons, hother]
  | cons f rest ih =>
    obtain ⟨n, old⟩ := f
    rw [put]
    split_ifs with hn
    · have hname : n = name := by simpa using hn
      simp [List.lookup_cons, hname, hother]
    · rw [List.lookup_cons, List.lookup_cons, ih]

/-- The name of the file that a path leads to. -/
def name? (d : Directory) (path : String) : Option String :=
  match d.target path with
  | .file name => some name
  | .error _ => none

theorem write_of_target {d : Directory} {path name : String} (h : d.target path = .file name)
    (text : String) : d.write path text = .ok ⟨put name text.toUTF8 d.files⟩ := by
  rw [write, h]

/-- A directory as a system of files. -/
def fileSystem : FileSystem Directory where
  File := String
  read := read
  write := write
  file? := name?
  bytes? := bytes?
  write_spec := by
    intro d e path text h
    cases ht : d.target path with
    | error cause =>
      rw [write, ht] at h
      cases h
    | file name =>
      rw [write_of_target ht] at h
      cases h
      exact ⟨name, by rw [name?, ht], lookup_put name _ d.files,
        fun other ho => lookup_put_of_ne ho _ d.files⟩

theorem access_fileSystem : fileSystem.access = access := by
  have hwrite (path text : String) : fileSystem.access.write path text = access.write path text := by
    refine StateT.ext fun d => ?_
    cases h : d.write path text <;> simp [FileSystem.access, access, fileSystem, h]
  rw [FileSystem.access, access, Files.mk.injEq]
  exact ⟨rfl, funext fun path => funext fun text => hwrite path text⟩

end Directory

end Acceptance
