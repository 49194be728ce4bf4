import Mathlib
import Idyl.Proofs.Compile.Registered
import Idyl.Workspace

/-!
# What a workspace remembers

A workspace keeps all files that were ever read in it.  Still nothing of what was compiled before
shows in what comes of a step.  Which libraries there are depends on those that were added, and an
error is shown in a file that was opened in the same step.

## Main definitions

* `Idyl.Workspace.addedLibraries` — the libraries that some steps add.

## Main results

* `Idyl.exists_registered` — an error is shown in a file of the same step.
* `Idyl.Workspace.libraries_run` — the libraries after some steps.
* `Idyl.Workspace.history_irrelevant` — a program is compiled as in a workspace without files.
-/

set_option autoImplicit false

namespace Idyl

/-! ## Libraries in memory -/

namespace MemoryLibraries

variable {libraries libraries' : MemoryLibraries}

/-- Libraries are found by their names, whatever was stored under these before. -/
lemma resolver_congr
    (h : ∀ n, libraries.libraries.lookup n = libraries'.libraries.lookup n) :
    libraries.resolver = libraries'.resolver := by
  funext n
  unfold resolver
  rw [h n]

end MemoryLibraries

variable {s : Settings} {libraries : MemoryLibraries} {text file name : String} {e : CompileError}

/-- **An error is shown in a file of the same step**: under the name that it carries one file is
found, whatever files were read before. -/
lemma exists_registered (h : (compile s libraries.resolver text file).result = .error e)
    (hname : e.file? = some name) :
    ∃ f : SourceFile, f.name = name ∧ ∀ m : SourceMap,
      (m.registerAll (compile s libraries.resolver text file).opened).find? name = some f := by
  rcases compile_error_cases h with ⟨tokens, -, n, -, hn⟩ | ⟨o, ho⟩
  · rw [(libraries.resolver_placeless n e hn).1] at hname
    cases hname
  · obtain ⟨f, hfile, hfind, -⟩ := ho.registered s
    obtain rfl : f.name = name := Option.some.inj (hfile.symm.trans hname)
    exact ⟨f, rfl, hfind⟩

/-- How an error is shown depends on the file that is found under its name. -/
lemma SourceMap.render_congr {m m' : SourceMap}
    (h : ∀ name, e.file? = some name → m.find? name = m'.find? name) :
    m.render e = m'.render e := by
  cases e with
  | inText stage message file span =>
    unfold render
    dsimp only
    rw [h file rfl]
  | libraryNotFound | libraryUnreadable => rfl

namespace Workspace

variable {w w' : Workspace}

/-! ## One step -/

/-- **One step.** Workspaces that find the same libraries compile a program with the same outcome,
whatever files they keep.

**Proof sketch.** They open the same files.  If there is an error, then by `exists_registered` it is
shown in one of these. -/
lemma step_compile_congr (h : w.libraries.resolver = w'.libraries.resolver) (file text : String) :
    (w.step (.compile file text)).1 = (w'.step (.compile file text)).1 := by
  rw [step, step, compile, compile, h]
  cases hresult : (Idyl.compile {} w'.libraries.resolver text file).result with
  | ok c => rfl
  | error e =>
    have hrender : (w.sources.registerAll
          (Idyl.compile {} w'.libraries.resolver text file).opened).render e =
        (w'.sources.registerAll
          (Idyl.compile {} w'.libraries.resolver text file).opened).render e := by
      apply SourceMap.render_congr
      intro name hname
      obtain ⟨f, -, hfind⟩ := exists_registered hresult hname
      rw [hfind, hfind]
    dsimp only
    rw [hrender]

/-! ## Several steps -/

/-- The libraries that some steps add, the latest one first. -/
def addedLibraries : List Step → List (String × String)
  | [] => []
  | .addLibrary name text :: steps => addedLibraries steps ++ [(name, text)]
  | .compile _ _ :: steps => addedLibraries steps

/-- Every step has one outcome. -/
lemma length_run (w : Workspace) (steps : List Step) : (w.run steps).1.length = steps.length := by
  induction steps generalizing w with
  | nil => rfl
  | cons s steps ih => rw [run, List.length_cons, List.length_cons, ih]

/-- Compiling does not change the libraries. -/
lemma libraries_step_compile (w : Workspace) (file text : String) :
    (w.step (.compile file text)).2.libraries = w.libraries := by
  rw [step, compile]
  cases (Idyl.compile {} w.libraries.resolver text file).result <;> rfl

/-- **The libraries after some steps** are those that were added, on top of those before. -/
lemma libraries_run (w : Workspace) (steps : List Step) :
    (w.run steps).2.libraries.libraries = addedLibraries steps ++ w.libraries.libraries := by
  induction steps generalizing w with
  | nil => rfl
  | cons s steps ih =>
    rw [run]
    dsimp only
    rw [ih]
    cases s with
    | addLibrary name text =>
      rw [addedLibraries, List.append_assoc]
      rfl
    | compile file text => rw [addedLibraries, libraries_step_compile]

/-- **History does not matter.** Whatever libraries were added to a workspace, and whatever programs
compiled in it, a program is compiled with the same outcome, the text of an error included, as in a
workspace that finds the same libraries and keeps no files.  If it has an error that carries the
name of a file, then the same file is found under this name in both.

**Proof sketch.** The outcome of the step is that of the workspace after the steps before it, by
`run_append`.  By `libraries_run` this finds the libraries that were added, so `step_compile_congr`
applies; and an error is shown in a file of the same step. -/
theorem history_irrelevant (w : Workspace) (before after : List Step) (file text : String)
    (libraries : MemoryLibraries)
    (hsame : ∀ n, libraries.libraries.lookup n =
      (addedLibraries before ++ w.libraries.libraries).lookup n) :
    (w.run (before ++ .compile file text :: after)).1[before.length]? =
        some ((⟨libraries, {}⟩ : Workspace).step (.compile file text)).1 ∧
      ∀ e name, ((⟨libraries, {}⟩ : Workspace).compile file text).1 = .error e →
        e.file? = some name →
          ∃ f : SourceFile, f.name = name ∧
            (w.run (before ++ [.compile file text])).2.sources.find? name = some f ∧
            ((⟨libraries, {}⟩ : Workspace).compile file text).2.sources.find? name = some f := by
  have hresolver : (w.run before).2.libraries.resolver = libraries.resolver := by
    apply MemoryLibraries.resolver_congr
    intro n
    rw [libraries_run, hsame]
  constructor
  · rw [run_append, List.getElem?_append_right (length_run w before).le, length_run,
      Nat.sub_self, run]
    exact congrArg some (step_compile_congr hresolver file text)
  · intro e name he hname
    obtain ⟨f, hf, hfind⟩ := exists_registered he hname
    refine ⟨f, hf, ?_, hfind {}⟩
    have hsources : (w.run (before ++ [.compile file text])).2.sources =
        (w.run before).2.sources.registerAll
          (Idyl.compile {} libraries.resolver text file).opened := by
      rw [run_append, run, step, compile, hresolver]
      dsimp only
      cases (Idyl.compile {} libraries.resolver text file).result <;> rfl
    rw [hsources]
    exact hfind _

/-- Steps that add a library, compile a program in a file of its name, and replace the library by
one that cannot be read. -/
def staleSteps : List Step :=
  [.addLibrary "m" "int function f() \x7b return 1; \x7d",
   .compile "m.idyl" "main() \x7b int x = y; \x7d",
   .addLibrary "m" "int function f( \x7b \x7d"]

/-- A program that imports the library. -/
def staleText : String := "use m; main() \x7b \x7d"

/-- The library that cannot be read. -/
def staleLibraries : MemoryLibraries := ⟨[("m", "int function f( \x7b \x7d")]⟩

/-- What is reported of it. -/
def staleError : CompileError :=
  .inText .parsing "expected type name, found '\x7b'" "m.idyl" ⟨16, 17, 1, 17⟩

/-- An error in a library that was replaced is shown in one file, though a program was read under
the name of this file before. -/
theorem history_irrelevant_sample :
    (∀ n, staleLibraries.libraries.lookup n = (addedLibraries staleSteps ++ []).lookup n) ∧
    (run {} (staleSteps ++ [.compile "a.idyl" staleText])).1[3]? =
      some ((⟨staleLibraries, {}⟩ : Workspace).step (.compile "a.idyl" staleText)).1 ∧
    ((⟨staleLibraries, {}⟩ : Workspace).compile "a.idyl" staleText).1 = .error staleError ∧
    ∃ f : SourceFile, f.name = "m.idyl" ∧
      (run {} (staleSteps ++ [.compile "a.idyl" staleText])).2.sources.find? "m.idyl" = some f ∧
      ((⟨staleLibraries, {}⟩ : Workspace).compile "a.idyl" staleText).2.sources.find? "m.idyl" =
        some f := by
  have hsame : ∀ n,
      staleLibraries.libraries.lookup n = (addedLibraries staleSteps ++ []).lookup n := by
    intro n
    simp only [staleLibraries, staleSteps, addedLibraries, List.nil_append, List.append_nil,
      List.singleton_append, List.lookup]
    cases n == "m" <;> rfl
  have herror : ((⟨staleLibraries, {}⟩ : Workspace).compile "a.idyl" staleText).1.map
      (fun _ => ()) = .error staleError := by decide +kernel
  rw [except_map_eq_error] at herror
  obtain ⟨houtcome, hshown⟩ :=
    history_irrelevant {} staleSteps [] "a.idyl" staleText staleLibraries hsame
  exact ⟨hsame, houtcome, herror, hshown staleError "m.idyl" herror rfl⟩

end Workspace

end Idyl
