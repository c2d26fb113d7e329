import Atlas.Fault

/-!
# Stores

Where exported files go. Anything that takes files will do, and a map asks for nothing else: it
hands over a file, and is told whether the file was saved. What was to save a file and could not
may have changed all the same; a lawful one has not.

A recorder remembers every file that it is given, with its media type. A sealed store takes none.
A folder holds its files by name, and a later file takes the place of an earlier one with its name.
Where it is decided only when a map is set up which of the three it gets, it gets a `Store`.

A folder has no folders inside. So a name can be written if it is one component long, where
leading `.` components and their slashes do not count, and if the component is one that a file can
have: not empty, not `.` or `..`, at most 255 bytes, without a NUL character.
-/

namespace Atlas

/-- A file that is to be saved. -/
structure SavedFile where
  name : String
  mediaType : String
  text : String
  deriving DecidableEq

/-- What takes files. -/
class FileSaver (σ : Type) where
  /-- Saves a file, or says why not. -/
  save : σ → SavedFile → σ × Except Fault Unit

/-- What takes files, and stays as it is when it does not take one. -/
class LawfulFileSaver (σ : Type) [FileSaver σ] : Prop where
  save_eq_of_error {s : σ} {file : SavedFile} {fault : Fault} :
    (FileSaver.save s file).2 = .error fault → (FileSaver.save s file).1 = s

/-! ## Recorders and sealed stores -/

/-- Takes every file and remembers it. -/
structure Recorder where
  files : List SavedFile
  deriving DecidableEq

instance : FileSaver Recorder where
  save r file := (⟨r.files ++ [file]⟩, .ok ())

instance : LawfulFileSaver Recorder where
  save_eq_of_error h := nomatch h

/-- Takes no file. -/
structure Sealed where
  deriving DecidableEq

instance : FileSaver Sealed where
  save s file := (s, .error (Fault.of (.notSaved ("saver refused " ++ file.name))))

instance : LawfulFileSaver Sealed where
  save_eq_of_error _ := rfl

/-! ## Folders -/

/-- A folder of files. -/
structure Folder where
  /-- The path by which messages refer to the folder. -/
  path : String
  /-- Whether the folder is there. -/
  present : Bool
  /-- The files by name. -/
  files : List (String × String)
  deriving DecidableEq

namespace Folder

/-- The longest name of a file, in bytes. -/
def maxNameBytes : Nat := 255

/-- Drops leading components that stay in the folder. -/
def dropStays : List String → List String
  | "." :: name :: rest => dropStays (name :: rest)
  | "" :: name :: rest => dropStays (name :: rest)
  | components => components

/-- The name of the file that a path inside of the folder leads to; nothing if it leads to no file
of the folder. -/
def fileName? (name : String) : Option String :=
  if name.toList.head? = some '/' then none
  else
    match dropStays ((name.toList.splitOn '/').map String.ofList) with
    | [c] =>
      if c = "" ∨ c = "." ∨ c = ".." then none
      else if maxNameBytes < c.utf8ByteSize ∨ '\x00' ∈ c.toList then none
      else some c
    | _ => none

/-- The path of a file as messages show it: an absolute name stands for itself. -/
def pathOf (f : Folder) (name : String) : String :=
  if name.toList.head? = some '/' then name else f.path ++ "/" ++ name

/-- Writes a file. -/
def write (f : Folder) (file : SavedFile) : Except Fault Folder :=
  match f.present, fileName? file.name with
  | true, some name => .ok { f with files := Keyed.insert name file.text f.files }
  | _, _ => .error ⟨[.writing (f.pathOf file.name)], .write⟩

end Folder

instance : FileSaver Folder where
  save f file :=
    match f.write file with
    | .ok f' => (f', .ok ())
    | .error fault => (f, .error fault)

instance : LawfulFileSaver Folder where
  save_eq_of_error {f file fault} h := by
    simp only [FileSaver.save] at h ⊢
    cases hw : f.write file with
    | ok f' => simp [hw] at h
    | error e => rfl

/-! ## Any of the three -/

/-- A store of one of the three kinds. -/
inductive Store where
  | recorder (files : List SavedFile)
  | refusing
  | folder (f : Folder)
  deriving DecidableEq

namespace Store

/-- Saves a file as a store of its kind does. -/
def save (s : Store) (file : SavedFile) : Store × Except Fault Unit :=
  match s with
  | .recorder files =>
    let (r, saved) := FileSaver.save (Recorder.mk files) file
    (.recorder r.files, saved)
  | .refusing => (.refusing, (FileSaver.save Sealed.mk file).2)
  | .folder f =>
    let (f, saved) := FileSaver.save f file
    (.folder f, saved)

end Store

instance : FileSaver Store := ⟨Store.save⟩

instance : LawfulFileSaver Store where
  save_eq_of_error {s file fault} h := by
    cases s with
    | recorder files => cases h
    | refusing => rfl
    | folder f => exact congrArg Store.folder (LawfulFileSaver.save_eq_of_error h)

end Atlas
