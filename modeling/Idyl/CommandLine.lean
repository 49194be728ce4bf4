import Idyl.Compile

/-!
# The command line

The command takes the path of a program and compiles it.  It prints a summary if the program is
without faults, and otherwise an excerpt that shows the first one.  Libraries are looked for
beside the program, or in a directory that is given.

## Main definitions

* `Idyl.Options`, `Idyl.Options.ofArgs?` — what is asked for.
* `Idyl.Output` — what is printed, and the exit code.
* `Idyl.runCommand` — the command.
-/

set_option autoImplicit false

namespace Idyl

/-- What is asked for on the command line. -/
structure Options where
  input : String
  libraryDir : Option String
  settings : Settings

namespace Options

/-- Arguments read so far. -/
structure Partial where
  input : Option String := none
  libraryDir : Option String := none
  settings : Settings := {}

/-- The text of an argument behind the given start. -/
def dropStart? (start arg : String) : Option String :=
  if start.toList.isPrefixOf arg.toList then
    some (String.ofList (arg.toList.drop start.length))
  else none

/-- Takes a path as the program to compile, of which there can be one. -/
def Partial.takeInput (p : Partial) (path : String) : Option Partial :=
  match p.input with
  | none => some { p with input := some path }
  | some _ => none

/-- Takes a directory of libraries, of which there can be one. -/
def Partial.takeDir (p : Partial) (dir : String) : Option Partial :=
  match p.libraryDir with
  | none => some { p with libraryDir := some dir }
  | some _ => none

/-- Takes an argument that is no path and has its value, if it needs one, in it. -/
def Partial.takeSwitch (p : Partial) (arg : String) : Option Partial :=
  if arg = "-v" || arg = "--verbose" then
    some { p with settings := { p.settings with verbose := true } }
  else if arg = "--dump-ast" then
    some { p with settings := { p.settings with listTree := true } }
  else if arg = "--dump-tokens" then
    some { p with settings := { p.settings with listTokens := true } }
  else
    match dropStart? "--lib-dir=" arg, dropStart? "-L=" arg, dropStart? "-L" arg with
    | some dir, _, _ | none, some dir, _ | none, none, some dir => p.takeDir dir
    | none, none, none => none

/-- Whether an argument is an option rather than a path. -/
def isOption (arg : String) : Bool := (dropStart? "-" arg).any (! ·.isEmpty)

/-- Takes all arguments, in order.  After `--` every argument is a path. -/
def Partial.takeAll (p : Partial) : List String → Option Partial
  | [] => some p
  | "--" :: args => args.foldlM takeInput p
  | "-L" :: dir :: args | "--lib-dir" :: dir :: args => do (← p.takeDir dir).takeAll args
  | arg :: args => do
    let p ← if isOption arg then p.takeSwitch arg else p.takeInput arg
    p.takeAll args

/-- What the arguments ask for, if they make sense. -/
def ofArgs? (args : List String) : Option Options := do
  let p ← Partial.takeAll {} args
  let input ← p.input
  some ⟨input, p.libraryDir, p.settings⟩

/-- The directory in which libraries are looked for. -/
def libraries (o : Options) : LibraryDir :=
  match o.libraryDir with
  | some dir => ⟨dir⟩
  | none => .beside o.input

end Options

/-! ## Output -/

/-- What is printed, and the exit code. -/
structure Output where
  exitCode : Nat
  stdout : String
  stderr : String
deriving DecidableEq

/-- Whether a note is written: a listing always, the log in full in a verbose run and otherwise
only as far as it warns. -/
def Note.isShown (verbose : Bool) : Note → Bool
  | .listing _ => true
  | .log l => verbose || l.level = .warn

/-- A note as it is written. -/
def Note.text : Note → String
  | .listing text => text
  | .log l => l.shown ++ "\n"

/-- The notes of a run as they are written. -/
def notesShown (verbose : Bool) (notes : List Note) : String :=
  String.join ((notes.filter (·.isShown verbose)).map Note.text)

/-- Names in a row. -/
def namesShown (names : List String) : String :=
  if names.isEmpty then "-" else ", ".intercalate names

/-- The libraries of a program, in the order of their names. -/
def librariesByName (libraries : List Library) : List Library :=
  libraries.mergeSort fun a b => a.name ≤ b.name

/-- The summary of a program without faults. -/
def summary (verbose : Bool) (file : String) (c : Compiled) : String :=
  let details := if verbose then
      s!"  imports:          {namesShown c.info.imports.names}\n" ++
      s!"  global functions: {namesShown c.info.functions.names}\n" ++
      String.join ((librariesByName c.libraries).map fun l =>
        s!"  library {l.name}: {namesShown (l.functions.map (·.name))}\n")
    else ""
  s!"{file}: ok\n" ++ details

/-! ## The command -/

/-- The command, as the log names it. -/
def commandSource : String := "idylc"

/-- Remarks on the path of a program. -/
def pathNotes (input : String) : List Note :=
  if Path.extension? input = some sourceExtension then []
  else
    [.log ⟨.warn, commandSource, s!"{input} does not have the .{sourceExtension} extension"⟩]

/-- Compiles the program that the options name. -/
def runOptions (files : FileView) (o : Options) : Output :=
  let verbose := o.settings.verbose
  match files.readText o.input with
  | .error e =>
    ⟨1, "", notesShown verbose (pathNotes o.input) ++
      s!"error: cannot read '{o.input}': {e.message}\n"⟩
  | .ok text =>
    let dir := o.libraries
    let start := Note.log ⟨.debug, commandSource, s!"resolving libraries in {dir.path}"⟩
    let run := compile o.settings (dir.resolver files) text o.input
    let log := notesShown verbose (pathNotes o.input ++ start :: run.notes)
    match run.result with
    | .ok c => ⟨0, summary verbose o.input c, log⟩
    | .error e => ⟨1, "", log ++ (SourceMap.registerAll {} run.opened).render e⟩

/-- How the command is used. -/
def usage : String :=
  "Usage: idylc [OPTIONS] <INPUT>\n\nOptions:\n" ++
  "  -L, --lib-dir <DIR>  Directory searched for libraries\n" ++
  "  -v, --verbose        Verbose output\n" ++
  "      --dump-ast       List the tree\n" ++
  "      --dump-tokens    List the tokens\n"

/-- The command.  Arguments that make no sense are answered by how it is used. -/
def runCommand (files : FileView) (args : List String) : Output :=
  match Options.ofArgs? args with
  | some o => runOptions files o
  | none => ⟨2, "", usage⟩

end Idyl
