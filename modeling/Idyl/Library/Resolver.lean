import Idyl.FileView
import Idyl.Path
import Idyl.Run

/-!
# Finding libraries

A program imports libraries by name.  A resolver finds the text of a library: in memory, by its
name, or in a directory, in the file that has the name of the library and the extension of
program files.

## Main definitions

* `Idyl.LibrarySource`, `Idyl.Resolver` — the text of a library, and how it is found.
* `Idyl.MemoryLibraries` — libraries in memory.
* `Idyl.LibraryDir` — libraries in a directory.
-/

set_option autoImplicit false

namespace Idyl

/-- The extension of program files. -/
def sourceExtension : String := "idyl"

/-- The text of a library, and the name that reports give to it. -/
structure LibrarySource where
  name : String
  file : String
  text : String
deriving DecidableEq

/-- A way to find the text of a library by its name. -/
abbrev Resolver := String → Run LibrarySource

/-! ## Libraries in memory -/

/-- Libraries in memory, by name; of two of one name the first counts. -/
structure MemoryLibraries where
  libraries : List (String × String) := []

namespace MemoryLibraries

/-- Adds a library, or gives it another text. -/
def insert (m : MemoryLibraries) (name text : String) : MemoryLibraries :=
  ⟨(name, text) :: m.libraries⟩

/-- Finds a library in memory. -/
def resolver (m : MemoryLibraries) : Resolver := fun name =>
  let file := s!"{name}.{sourceExtension}"
  match m.libraries.lookup name with
  | some text => pure ⟨name, file, text⟩
  | none => .ofExcept (.error (.libraryNotFound name file))

end MemoryLibraries

/-! ## Libraries in a directory -/

/-- A directory of libraries. -/
structure LibraryDir where
  path : String
deriving DecidableEq

namespace LibraryDir

/-- The directory that a file lies in. -/
def beside (input : String) : LibraryDir :=
  match Path.parent? input with
  | some dir => if dir.isEmpty then ⟨"."⟩ else ⟨dir⟩
  | none => ⟨"."⟩

/-- The file of a library. -/
def fileOf (d : LibraryDir) (name : String) : String :=
  Path.withExtension (Path.join d.path name) sourceExtension

/-- The part of the compiler that reads libraries, as the log names it. -/
def logSource : String := "idyl_compiler::driver::library"

/-- Finds a library in the directory. -/
def resolver (d : LibraryDir) (files : FileView) : Resolver := fun name => do
  let file := d.fileOf name
  if files.isFile file then
    Run.debug logSource s!"reading library '{name}' from {file}"
    match files.readText file with
    | .ok text => pure ⟨name, file, text⟩
    | .error e => .ofExcept (.error (.libraryUnreadable name file e.message))
  else .ofExcept (.error (.libraryNotFound name file))

end LibraryDir

end Idyl
