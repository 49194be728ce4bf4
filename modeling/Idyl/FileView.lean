import Idyl.Path

/-!
# Files as the compiler sees them

The compiler asks for files by their paths and gets their bytes, or the reason why there are
none.  Everything it does depends on the files only through these answers, so a tree of files in
memory serves as well as a disk.

## Main definitions

* `Idyl.FileFault`, `Idyl.Entry`, `Idyl.FileView` — answers to the question what a path leads to.
* `Idyl.FileView.isFile`, `Idyl.FileView.readText` — looking for a file, reading one.
* `Idyl.FileTree`, `Idyl.FileTree.view` — files in memory, below a root, seen from a working
  directory.
-/

set_option autoImplicit false

namespace Idyl

/-- Why a path does not lead to a text. -/
inductive FileFault where
  | notFound | notDirectory | isDirectory | notText
deriving DecidableEq

/-- The wording of the system. -/
def FileFault.message : FileFault → String
  | notFound => "No such file or directory (os error 2)"
  | notDirectory => "Not a directory (os error 20)"
  | isDirectory => "Is a directory (os error 21)"
  | notText => "stream did not contain valid UTF-8"

/-- What a path leads to. -/
inductive Entry where
  | directory
  | file (bytes : ByteArray)

/-- What every path leads to. -/
def FileView : Type := String → Except FileFault Entry

namespace FileView

/-- Whether a path leads to a file. -/
def isFile (files : FileView) (path : String) : Bool :=
  match files path with
  | .ok (.file _) => true
  | _ => false

/-- The text of a file.  Its bytes have to be valid UTF-8. -/
def readText (files : FileView) (path : String) : Except FileFault String :=
  match files path with
  | .error e => .error e
  | .ok .directory => .error .isDirectory
  | .ok (.file bytes) =>
    match String.fromUTF8? bytes with
    | some text => .ok text
    | none => .error .notText

end FileView

/-! ## Files in memory -/

/-- Files and directories, by their components from the root on, and the place of the working
directory.  The directories that lead to an entry or to the working directory need not be
listed. -/
structure FileTree where
  entries : List (List String × Entry)
  workingDirectory : List String

namespace FileTree

/-- The components of a path. -/
def components (path : String) : List String := (path.toList.splitOn '/').map String.ofList

/-- Whether a component stays where it is. -/
def isStay (component : String) : Bool := component = "" || component = "."

/-- The place that a path starts from: the root if it is absolute, and otherwise the working
directory. -/
def startOf (workingDirectory : List String) (path : String) : List String :=
  if Path.isAbsolute path then [] else workingDirectory

/-- The tree of some paths and what they lead to, seen from a working directory. -/
def ofPathsFrom (workingDirectory : List String) (files : List (String × Entry)) : FileTree where
  entries := files.map fun (path, e) =>
    (startOf workingDirectory path ++ (components path).filter (! isStay ·), e)
  workingDirectory := workingDirectory

/-- The tree of some paths, seen from a working directory below the root. -/
def ofPaths (files : List (String × Entry)) : FileTree := ofPathsFrom ["home"] files

/-- What stands at a place in the tree.  A place that leads to an entry or to the working directory
is a directory. -/
def at? (t : FileTree) (place : List String) : Option Entry :=
  match t.entries.find? (·.1 = place) with
  | some (_, e) => some e
  | none =>
    if place.isPrefixOf t.workingDirectory || t.entries.any (fun e => place.isPrefixOf e.1) then
      some .directory
    else none

/-- Follows the components of a path from a place in the tree.  Only a directory leads on.  Two dots
lead to the directory above, and at the root they stay there. -/
def follow (t : FileTree) (place : List String) : List String → Except FileFault Entry
  | [] => (t.at? place).elim (.error .notFound) .ok
  | c :: cs =>
    match t.at? place with
    | none => .error .notFound
    | some (.file _) => .error .notDirectory
    | some .directory =>
      if isStay c then t.follow place cs
      else if c = ".." then t.follow place.dropLast cs
      else t.follow (place ++ [c]) cs

/-- What paths lead to.  The empty path leads nowhere. -/
def view (t : FileTree) : FileView := fun path =>
  if path.isEmpty then .error .notFound
  else t.follow (startOf t.workingDirectory path) (components path)

end FileTree

end Idyl
