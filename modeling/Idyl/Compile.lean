import Idyl.Grammar.Session
import Idyl.Library.Resolver
import Idyl.Listing
import Idyl.Typing.Check

/-!
# Compiling a program

A program is compiled in stages: its text is cut into tokens, the libraries it imports are found
and read, its tokens are read as a program, and the program is checked.  The imports are taken
from the tokens, before it is known whether they spell a program.

## Main definitions

* `Idyl.Settings` — what a run tells about itself.
* `Idyl.scanStage`, `Idyl.programStage`, `Idyl.libraryStage`, `Idyl.checkStage` — the stages.
* `Idyl.frontEnd` — all stages but the search for libraries.
* `Idyl.leadingImports`, `Idyl.loadLibraries` — imports and their libraries.
* `Idyl.compile` — the whole.
-/

set_option autoImplicit false

namespace Idyl

/-- What a run tells about itself. -/
structure Settings where
  listTokens : Bool := false
  listTree : Bool := false
  verbose : Bool := false
deriving DecidableEq

/-! ## Stages -/

/-- The part of the compiler that runs the stages, as the log names it. -/
def stageSource : String := "idyl_compiler::frontend"

/-- The part of the compiler that checks programs, as the log names it. -/
def checkSource : String := "idyl_compiler::frontend::sema::analyzer"

/-- The part of the compiler that loads libraries, as the log names it. -/
def compileSource : String := "idyl_compiler::driver"

/-- Runs a stage on a file.  The log names it before it starts and, in a verbose run, after it
has ended in one way or the other.  How long it took is left open. -/
def Run.stage {α : Type} (s : Settings) (name file : String) (x : Run α) : Run α := do
  Run.debug stageSource s!"{name} {file}"
  if s.verbose then x.followedBy (.log ⟨.info, stageSource, s!"{name} {file} took _"⟩) else x

/-- Cuts a text into tokens. -/
def scanStage (s : Settings) (text file : String) : Run (List Token) := do
  let tokens ← Run.stage s "scanning" file (.ofExcept ((scan text file).mapError LexError.report))
  Run.listIf s.listTokens (tokenListing file tokens)
  pure tokens

/-- Reads tokens as a program. -/
def programStage (s : Settings) (tokens : List Token) (file : String) : Run Program := do
  let p ← Run.stage s "parsing" file
    (.ofExcept ((parseTokens tokens).mapError SyntaxError.report))
  Run.listIf s.listTree (programListing file p)
  pure p

/-- Reads tokens as a library. -/
def libraryStage (s : Settings) (tokens : List Token) (file : String) : Run (List Function) := do
  let fs ← Run.stage s "parsing library" file
    (.ofExcept ((parseLibraryTokens tokens).mapError SyntaxError.report))
  Run.listIf s.listTree (libraryListing file fs)
  pure fs

/-- Writes the errors behind the first to the log. -/
def noteLater : List CompileError → Run Unit
  | [] => pure ()
  | e :: es => do
    Run.debug checkSource s!"also found: {e.shown}"
    noteLater es

/-- The errors of a program, collected. -/
def diagnose (p : Program) (libraries : NameSet) : Diagnostics :=
  ⟨(checkProgram p libraries).map SemanticError.report⟩

/-- Checks a program that can use the given libraries.  Its first error is the outcome; the
others only go to the log. -/
def checkStage (s : Settings) (p : Program) (libraries : NameSet) : Run ProgramInfo :=
  Run.stage s "analyzing" p.file do
    let d := diagnose p libraries
    let count := p.functions.length + 1
    Run.debug checkSource s!"analyzed {p.file}: {count} function(s), {d.size} error(s)"
    noteLater (d.errors.drop 1)
    let _ ← Run.ofExcept d.toExcept
    pure (p.info libraries)

/-- Reads and checks a single program that can use the given libraries. -/
def frontEnd (s : Settings) (text file : String) (libraries : NameSet) :
    Run (Program × ProgramInfo) := do
  let tokens ← scanStage s text file
  let p ← programStage s tokens file
  let info ← checkStage s p libraries
  pure (p, info)

/-! ## Libraries -/

/-- The modules imported at the start of a file: the names between `use` and a semicolon, as
long as nothing else stands between. -/
def leadingImports : List Token → List String
  | t :: u :: v :: ts =>
    match t.kind, u.kind, v.kind with
    | .keyword .use, .identifier name, .punct .semi => name :: leadingImports ts
    | _, _, _ => []
  | _ => []

/-- A library that has been read. -/
structure Library where
  name : String
  functions : List Function

/-- Whether a library of this name has been read. -/
def isLoaded (loaded : List Library) (name : String) : Bool := loaded.any (·.name = name)

/-- Finds and reads a library. -/
def loadLibrary (s : Settings) (resolve : Resolver) (name : String) : Run Library := do
  let source ← resolve name
  Run.opening ⟨source.file, source.text⟩
  let tokens ← scanStage s source.text source.file
  let fs ← libraryStage s tokens source.file
  Run.debug compileSource
    s!"loaded library '{name}' from {source.file} ({fs.length} function(s))"
  pure ⟨name, fs⟩

/-- Reads the libraries of the given names, in order and each once, behind those that have been
read.  Modules that come with the language are no libraries. -/
def loadLibraries (s : Settings) (resolve : Resolver) (loaded : List Library) :
    List String → Run (List Library)
  | [] => pure loaded
  | name :: names =>
    if isBuiltinModule name || isLoaded loaded name then loadLibraries s resolve loaded names
    else do
      let library ← loadLibrary s resolve name
      loadLibraries s resolve (loaded ++ [library]) names

/-! ## The whole -/

/-- A program without faults, with the libraries it imports in the order of import. -/
structure Compiled where
  program : Program
  info : ProgramInfo
  libraries : List Library

/-- The names of libraries. -/
def libraryNames (libraries : List Library) : NameSet := .ofList (libraries.map (·.name))

/-- Compiles a program. -/
def compile (s : Settings) (resolve : Resolver) (text file : String) : Run Compiled := do
  Run.opening ⟨file, text⟩
  let tokens ← scanStage s text file
  let libraries ← loadLibraries s resolve [] (leadingImports tokens)
  let p ← programStage s tokens file
  let info ← checkStage s p (libraryNames libraries)
  Run.debug compileSource
    (s!"{file}: {info.imports.size} import(s), {info.functions.size} global function(s), " ++
      s!"{info.libraries.size} user librar(ies)")
  pure ⟨p, info, libraries⟩

end Idyl
