import Idyl.CommandLine

/-!
# The program

The command line works on the files that it may ask for, so they are read beforehand: the
program, and the libraries that its first tokens import.

## Main definitions

* `Idyl.snapshot` — the files that a command may ask for.
* `main` — the program.
-/

set_option autoImplicit false

namespace Idyl

/-- What a path leads to on the disk. -/
def readEntry (path : String) : IO (Except FileFault Entry) := do
  try
    let bytes ← IO.FS.readBinFile path
    return .ok (.file bytes)
  catch
    | .noFileOrDirectory .. => return .error .notFound
    | .inappropriateType _ 21 _ => return .ok .directory
    | .inappropriateType .. => return .error .notDirectory
    | _ => return .error .notFound

/-- The files among those read. -/
def viewOf (read : List (String × Except FileFault Entry)) : FileView := fun path =>
  (read.lookup path).getD (.error .notFound)

/-- The paths of the libraries that a program imports. -/
def importedPaths (files : FileView) (o : Options) : List String :=
  match files.readText o.input with
  | .error _ => []
  | .ok text =>
    match scan text o.input with
    | .error _ => []
    | .ok tokens => (leadingImports tokens).map o.libraries.fileOf

/-- Reads the files at some paths. -/
def readEntries (paths : List String) : IO (List (String × Except FileFault Entry)) :=
  paths.mapM fun path => do return (path, ← readEntry path)

/-- The files that a command may ask for. -/
def snapshot (args : List String) : IO FileView := do
  match Options.ofArgs? args with
  | none => return viewOf []
  | some o =>
    let input ← readEntries [o.input]
    let libraries ← readEntries (importedPaths (viewOf input) o)
    return viewOf (input ++ libraries)

end Idyl

/-- Runs the command on the files on the disk. -/
def main (args : List String) : IO UInt32 := do
  let out := Idyl.runCommand (← Idyl.snapshot args) args
  (← IO.getStdout).putStr out.stdout
  (← IO.getStderr).putStr out.stderr
  return .ofNat out.exitCode
