import Idyl.Compile

/-!
# Workspaces

A workspace holds libraries in memory and the texts of all files read so far.  Libraries can be
added to it and programs compiled in it, one after the other.

## Main definitions

* `Idyl.Workspace` — libraries and files.
* `Idyl.Workspace.Step`, `Idyl.Workspace.Outcome` — what is done in it, and what comes of it.
* `Idyl.Workspace.step`, `Idyl.Workspace.run` — a step, and several of them.

## Main results

* `Idyl.Workspace.run_append` — steps can be split into two parts.
-/

set_option autoImplicit false

namespace Idyl

/-- Libraries in memory, and the files read so far. -/
structure Workspace where
  libraries : MemoryLibraries := {}
  sources : SourceMap := {}

namespace Workspace

/-- What is done in a workspace. -/
inductive Step where
  | addLibrary (name text : String)
  | compile (file text : String)
deriving DecidableEq

/-- What comes of a step.  An error is shown in the texts that are known after the step. -/
inductive Outcome where
  | added
  | compiled (result : Compiled)
  | failed (error : CompileError) (shown : String)

/-- Adds a library, or gives it another text. -/
def addLibrary (w : Workspace) (name text : String) : Workspace :=
  { w with libraries := w.libraries.insert name text }

/-- Compiles a program against the libraries.  The files that were opened are kept. -/
def compile (w : Workspace) (file text : String) : Except CompileError Compiled × Workspace :=
  let run := Idyl.compile {} w.libraries.resolver text file
  (run.result, { w with sources := w.sources.registerAll run.opened })

/-- Does a step. -/
def step (w : Workspace) : Step → Outcome × Workspace
  | .addLibrary name text => (.added, w.addLibrary name text)
  | .compile file text =>
    match w.compile file text with
    | (.ok c, w') => (.compiled c, w')
    | (.error e, w') => (.failed e (w'.sources.render e), w')

/-- Does several steps, one after the other. -/
def run (w : Workspace) : List Step → List Outcome × Workspace
  | [] => ([], w)
  | s :: ss =>
    let (o, w') := w.step s
    let (os, w'') := w'.run ss
    (o :: os, w'')

/-- Steps after steps. -/
theorem run_append (w : Workspace) (ss ts : List Step) :
    w.run (ss ++ ts) =
      ((w.run ss).1 ++ ((w.run ss).2.run ts).1, ((w.run ss).2.run ts).2) := by
  induction ss generalizing w with
  | nil => rfl
  | cons s ss ih => simp [run, ih]

end Workspace

end Idyl
