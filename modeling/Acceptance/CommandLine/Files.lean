/-!
# Files

A command only reads and writes whole texts. A `Directory` is a model of that: files without
subdirectories, addressed by relative paths. A step up leads outside, where there are no files.

Results:
* `Directory.lookup_put`: what was put into a file is found there.
-/

namespace Acceptance

/-- Why a file cannot be read or written. -/
inductive FileError where
  | notFound
  | isDirectory
  | notDirectory
  | nameTooLong
  /-- The content is no text in UTF-8. -/
  | notText
  /-- The system says so. -/
  | other (message : String)
  deriving Repr, DecidableEq

/-- The cause in words. -/
def FileError.message : FileError → String
  | notFound => "No such file or directory (os error 2)"
  | isDirectory => "Is a directory (os error 21)"
  | notDirectory => "Not a directory (os error 20)"
  | nameTooLong => "File name too long (os error 36)"
  | notText => "stream did not contain valid UTF-8"
  | other message => message

/-- How files are read and written. -/
structure Files (m : Type → Type) where
  /-- The text of a file. -/
  read : String → m (Except FileError String)
  /-- Gives a file a text, in place of what it held. -/
  write : String → String → m (Except FileError Unit)

/-- The files of one directory, by name. -/
structure Directory where
  files : List (String × ByteArray) := []

namespace Directory

/-- What a path leads to: the name of a file that is there or may be made. -/
inductive Target where
  | file (name : String)
  | error (cause : FileError)
  deriving Repr, DecidableEq

/-- The parts of a path between slashes. -/
def parts : List Char → List (List Char)
  | [] => [[]]
  | c :: s =>
    match parts s with
    | [] => [[c]]
    | part :: more => if c == '/' then [] :: part :: more else (c :: part) :: more

/-- The greatest number of bytes of a name. -/
def maxName : Nat := 255

/-- What the parts of a path lead to, from inside the directory or from outside of it. -/
def follow (d : Directory) (inside : Bool) : List (List Char) → Target
  | [] => .error .isDirectory
  | part :: rest =>
    let name := String.ofList part
    if part.isEmpty || part == ['.'] then follow d inside rest
    else if part == ['.', '.'] then follow d false rest
    else if name.utf8ByteSize > maxName then .error .nameTooLong
    else if !inside then .error .notFound
    else if rest.isEmpty then .file name
    else if (d.files.lookup name).isSome then .error .notDirectory
    else .error .notFound

/-- What a path leads to. -/
def target (d : Directory) (path : String) : Target :=
  match path.toList with
  | '/' :: rest => d.follow false (parts rest)
  | s => d.follow true (parts s)

/-- The bytes of a file. -/
def bytes? (d : Directory) (name : String) : Option ByteArray :=
  d.files.lookup name

/-- The text of the file at a path. -/
def read (d : Directory) (path : String) : Except FileError String :=
  match d.target path with
  | .error cause => .error cause
  | .file name =>
    match d.bytes? name with
    | none => .error .notFound
    | some bytes =>
      match String.fromUTF8? bytes with
      | some s => .ok s
      | none => .error .notText

/-- The files with new content for one name. -/
def put (name : String) (content : ByteArray) :
    List (String × ByteArray) → List (String × ByteArray)
  | [] => [(name, content)]
  | (n, old) :: rest =>
    if n == name then (name, content) :: rest else (n, old) :: put name content rest

/-- The directory after a text was written to a path. -/
def write (d : Directory) (path text : String) : Except FileError Directory :=
  match d.target path with
  | .error cause => .error cause
  | .file name => .ok ⟨put name text.toUTF8 d.files⟩

/-- Reading and writing files of a directory that is changed on the way. -/
def access : Files (StateM Directory) where
  read path := do return (← get).read path
  write path text := do
    match (← get).write path text with
    | .ok d => set d; return .ok ()
    | .error cause => return .error cause

/-! ## First laws -/

theorem lookup_put (name : String) (content : ByteArray) (files : List (String × ByteArray)) :
    (put name content files).lookup name = some content := by
  induction files with
  | nil => simp [put]
  | cons f rest ih =>
    obtain ⟨n, old⟩ := f
    by_cases h : n = name
    · simp [put, h]
    · have h' : (name == n) = false := by simpa using Ne.symm h
      simp [put, h, List.lookup_cons, h', ih]

end Directory

end Acceptance
