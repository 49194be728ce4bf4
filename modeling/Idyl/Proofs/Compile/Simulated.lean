import Mathlib
import Idyl.Proofs.Compile.Origin
import Idyl.Proofs.Library.Directory
import Idyl.Proofs.Pairing.Renamed
import Idyl.Proofs.Token.Steps

/-!
# Libraries in a directory and in memory

Compiling with the libraries of a directory and compiling with the same libraries in memory come
to the same.  Both give the same program with the same libraries, or both give an error of one
kind; only the files that an error tells have other names.

A library in memory is found exactly if the directory contains its file, since names of libraries
are words.  Its text is then read under another name, which shows in no function.

## Main definitions

* `Idyl.CompileError.Alike` — errors that differ only in files.
* `Idyl.SameOutcome` — results that differ only in the files of errors.

## Main results

* `Idyl.readLibrary_mirrored` — a library in a directory and in memory.
* `Idyl.compile_sameOutcome` — compiling with libraries that come to the same.
* `Idyl.compile_mirrored` — libraries in memory stand for those in a directory.
-/

set_option autoImplicit false

namespace Idyl

/-! ## Outcomes -/

/-- Errors of one kind that differ only in files.  Faults in texts have the same message and stand
at the same place. -/
inductive CompileError.Alike : CompileError → CompileError → Prop
  | inText {stage : Stage} {message file file' : String} {span : Span} :
      Alike (.inText stage message file span) (.inText stage message file' span)
  | libraryNotFound {name path path' : String} :
      Alike (.libraryNotFound name path) (.libraryNotFound name path')
  | libraryUnreadable {name path path' reason : String} :
      Alike (.libraryUnreadable name path reason) (.libraryUnreadable name path' reason)

/-- The same value, or errors that differ only in files. -/
inductive SameOutcome {α : Type} : Except CompileError α → Except CompileError α → Prop
  | ok {a : α} : SameOutcome (.ok a) (.ok a)
  | error {e e' : CompileError} (he : e.Alike e') : SameOutcome (.error e) (.error e')

section Outcomes

variable {α β : Type}

/-- An error is like itself. -/
lemma CompileError.Alike.refl (e : CompileError) : e.Alike e := by
  cases e <;> constructor

/-- An outcome is the same as itself. -/
lemma SameOutcome.refl (x : Except CompileError α) : SameOutcome x x := by
  cases x with
  | ok a => exact .ok
  | error e => exact .error (.refl e)

/-- Two computations in a row have the same outcome if each of them has. -/
lemma SameOutcome.bind {x x' : Except CompileError α} {f f' : α → Except CompileError β}
    (hx : SameOutcome x x') (hf : ∀ a, x = .ok a → SameOutcome (f a) (f' a)) :
    SameOutcome (x >>= f) (x' >>= f') := by
  cases hx with
  | ok => exact hf _ rfl
  | error he => exact .error he

/-- The same change of values keeps outcomes the same. -/
lemma SameOutcome.map {x x' : Except CompileError α} (hx : SameOutcome x x') (f : α → β) :
    SameOutcome (x.map f) (x'.map f) := by
  cases hx with
  | ok => exact .ok
  | error he => exact .error he

/-- Faults that differ in their files only are reported alike. -/
lemma Located.Paired.alike {φ : Type} {e e' : Located φ} (h : e.Paired .renamed e') (stage : Stage)
    (message : φ → String) : (e.toError stage message).Alike (e'.toError stage message) := by
  rw [Located.toError, Located.toError, h.fault_eq, Pairing.eq_of_renamed h.span]
  exact .inText

/-- Readings that differ in their files only are reported alike. -/
lemma Pairing.Results.sameOutcome {x x' : Except SyntaxError α}
    (h : Pairing.renamed.Results Eq x x') :
    SameOutcome (x.mapError SyntaxError.report) (x'.mapError SyntaxError.report) := by
  cases h with
  | ok ha =>
    rw [ha]
    exact .ok
  | error he => exact .error (he.alike _ _)

end Outcomes

/-! ## Libraries -/

/-- **A library under two names** has the same functions, or a fault of the same kind at the same
place. -/
lemma readSource_renamed (name file file' text : String) :
    SameOutcome (readSource ⟨name, file, text⟩) (readSource ⟨name, file', text⟩) := by
  have hscan := scan_renamed text file file'
  rw [readSource, readSource]
  dsimp only
  generalize hx : scan text file = x, scan text file' = x' at hscan
  cases hscan with
  | error he => exact .error (he.alike _ _)
  | ok htokens =>
    exact (parseLibraryTokens_renamed (scan_endsOnce hx) htokens).sameOutcome

section Mirrored

variable {m : MemoryLibraries} {t : FileTree} {d : LibraryDir} {name : String}

/-- A library in memory is found with its text. -/
lemma result_memory_of_found {text : String} (h : m.libraries.lookup name = some text) :
    ∃ file, (m.resolver name).result = .ok ⟨name, file, text⟩ := by
  rw [MemoryLibraries.resolver, h]
  exact ⟨_, rfl⟩

/-- A library that is not in memory is not found. -/
lemma result_memory_of_missing (h : m.libraries.lookup name = none) :
    ∃ path, (m.resolver name).result = .error (.libraryNotFound name path) := by
  rw [MemoryLibraries.resolver, h]
  exact ⟨_, rfl⟩

/-- A library whose file holds a text is found with that text. -/
lemma result_directory_of_found {files : FileView} {bytes : ByteArray} {text : String}
    (h : files (d.fileOf name) = .ok (.file bytes)) (htext : String.fromUTF8? bytes = some text) :
    (d.resolver files name).result = .ok ⟨name, d.fileOf name, text⟩ := by
  have hfile : files.isFile (d.fileOf name) = true := by rw [FileView.isFile, h]
  have hread : files.readText (d.fileOf name) = .ok text := by simp [FileView.readText, h, htext]
  rw [LibraryDir.resolver]
  simp [hfile, hread, Run.result_bind, ok_bind]

/-- A library without a file is not found. -/
lemma result_directory_of_missing {files : FileView}
    (h : ∀ bytes, files (d.fileOf name) ≠ .ok (.file bytes)) :
    (d.resolver files name).result = .error (.libraryNotFound name (d.fileOf name)) := by
  have hfile : files.isFile (d.fileOf name) = false := by
    rw [FileView.isFile]
    split
    · next bytes heq => exact absurd heq (h bytes)
    · rfl
  rw [LibraryDir.resolver]
  simp [hfile]

/-- **A library in a directory and in memory.** It is found in both or in none of them, and is read
from the same text. -/
lemma readLibrary_mirrored (hm : m.Mirrors t d) (hname : isIdentifier name = true)
    (htext : ∀ bytes, t.entryIn? d.path (libraryFile name) = some (.file bytes) →
      (String.fromUTF8? bytes).isSome) :
    SameOutcome (readLibrary (d.resolver t.view) name) (readLibrary m.resolver name) := by
  have hview (e : Entry) :
      t.view (d.fileOf name) = .ok e ↔ t.entryIn? d.path (libraryFile name) = some e := by
    rw [d.fileOf_eq hname, FileTree.view_join d.path (isName_libraryFile hname)]
  by_cases hfile : ∃ bytes, t.entryIn? d.path (libraryFile name) = some (.file bytes)
  · obtain ⟨bytes, hentry⟩ := hfile
    obtain ⟨text, hbytes⟩ := Option.isSome_iff_exists.1 (htext bytes hentry)
    obtain ⟨file, hmemory⟩ :=
      result_memory_of_found ((hm name text).2 ⟨hname, bytes, hentry, hbytes⟩)
    have hdirectory := result_directory_of_found ((hview _).2 hentry) hbytes
    rw [readLibrary_of_found hdirectory, readLibrary_of_found hmemory]
    exact readSource_renamed name (d.fileOf name) file text
  · have hnone : m.libraries.lookup name = none := by
      refine Option.eq_none_iff_forall_ne_some.2 fun text hsome => hfile ?_
      obtain ⟨-, bytes, hentry, -⟩ := (hm name text).1 hsome
      exact ⟨bytes, hentry⟩
    obtain ⟨path, hmemory⟩ := result_memory_of_missing hnone
    have hdirectory : (d.resolver t.view name).result =
        .error (.libraryNotFound name (d.fileOf name)) :=
      result_directory_of_missing fun bytes heq => hfile ⟨bytes, (hview _).1 heq⟩
    rw [readLibrary, readLibrary, hdirectory, hmemory]
    exact .error .libraryNotFound

end Mirrored

/-! ## Compiling -/

section Compiling

variable {resolve resolve' : Resolver} {text file : String}

/-- **Loading libraries that come to the same**, by induction on the imports. -/
lemma loadLibraries_sameOutcome (s : Settings) {names : List String}
    (h : ∀ n ∈ libraryImports names, SameOutcome (readLibrary resolve n) (readLibrary resolve' n))
    (loaded : List Library) :
    SameOutcome (loadLibraries s resolve loaded names).result
      (loadLibraries s resolve' loaded names).result := by
  induction names generalizing loaded with
  | nil => exact .ok
  | cons name names ih =>
    rw [loadLibraries, loadLibraries]
    have hrest : ∀ n ∈ libraryImports names,
        SameOutcome (readLibrary resolve n) (readLibrary resolve' n) := fun n hn =>
      h n ((List.sublist_cons_self name names).filter _ |>.mem hn)
    by_cases hskip : isBuiltinModule name = true ∨ isLoaded loaded name = true
    · rw [if_pos (by simpa using hskip), if_pos (by simpa using hskip)]
      exact ih hrest loaded
    · rw [if_neg (by simpa using hskip), if_neg (by simpa using hskip), Run.result_bind,
        Run.result_bind, result_loadLibrary, result_loadLibrary]
      have hname : name ∈ libraryImports (name :: names) := by
        rw [not_or, Bool.not_eq_true] at hskip
        simp [libraryImports, hskip.1]
      exact ((h name hname).map _).bind fun library _ => ih hrest _

/-- **Compiling with libraries that come to the same.** -/
lemma compile_sameOutcome (s : Settings)
    (h : ∀ tokens, scan text file = .ok tokens → ∀ n ∈ libraryImports (leadingImports tokens),
      SameOutcome (readLibrary resolve n) (readLibrary resolve' n)) :
    SameOutcome (compile s resolve text file).result (compile s resolve' text file).result := by
  rw [result_compile, result_compile]
  refine (SameOutcome.refl _).bind fun tokens htokens => ?_
  refine SameOutcome.bind (loadLibraries_sameOutcome s ?_ []) fun libraries _ => .refl _
  exact h tokens (except_mapError_eq_ok.1 htokens)

/-- The name of an import stands among the tokens. -/
lemma exists_of_mem_leadingImports {tokens : List Token} {name : String}
    (h : name ∈ leadingImports tokens) : ∃ u ∈ tokens, u.kind = .identifier name := by
  fun_induction leadingImports tokens with
  | case1 t u v ts ht n hu hv ih =>
    rcases List.mem_cons.1 h with rfl | h
    · exact ⟨u, by simp, hu⟩
    · obtain ⟨w, hw, hkind⟩ := ih h
      exact ⟨w, by simp [hw], hkind⟩
  | case2 => simp at h
  | case3 => simp at h

/-- Modules are imported by names that are words. -/
lemma isIdentifier_of_mem_leadingImports {tokens : List Token} (h : scan text file = .ok tokens)
    {name : String} (hname : name ∈ leadingImports tokens) : isIdentifier name = true := by
  obtain ⟨body, last, rfl, hlast, hbody⟩ := scan_kinds h
  obtain ⟨u, hu, hkind⟩ := exists_of_mem_leadingImports hname
  rcases List.mem_append.1 hu with hu | hu
  · have hwritable := hbody u hu
    rwa [hkind] at hwritable
  · obtain rfl := List.mem_singleton.1 hu
    rw [hlast] at hkind
    cases hkind

end Compiling

/-- **Libraries in memory stand for those in a directory.** The libraries in a directory can be held
in memory.  If every file of a library that a program imports has a text, then compiling gives
the same program, the same knowledge of it and the same libraries with the directory as with such
libraries in memory, or it fails with both, with errors that differ only in files. -/
theorem compile_mirrored (s : Settings) (t : FileTree) (d : LibraryDir) (text file : String) :
    (d.snapshot t).Mirrors t d ∧
    ∀ m : MemoryLibraries, m.Mirrors t d →
      (∀ tokens, scan text file = .ok tokens → ∀ n ∈ libraryImports (leadingImports tokens),
        ∀ bytes, t.entryIn? d.path (libraryFile n) = some (.file bytes) →
          (String.fromUTF8? bytes).isSome) →
      SameOutcome (compile s (d.resolver t.view) text file).result
        (compile s m.resolver text file).result := by
  refine ⟨d.mirrors_snapshot t, fun m hm htexts => ?_⟩
  refine compile_sameOutcome s fun tokens htokens n hn => ?_
  have hname := isIdentifier_of_mem_leadingImports htokens (List.mem_of_mem_filter hn)
  exact readLibrary_mirrored hm hname (htexts tokens htokens n hn)

/-- Two libraries, one of which has a `main`, and a file that has no text, in a directory that lies
outside of the working directory. -/
def sampleTree : FileTree := .ofPathsFrom ["home", "ann"]
  [("/srv/libs/squares.idyl", .file "int function sq(int n) \x7b return n * n; \x7d".toUTF8),
    ("/srv/libs/rogue.idyl", .file "main() \x7b \x7d".toUTF8),
    ("/srv/libs/noise.idyl", .file ⟨#[255]⟩)]

/-- The directory of these libraries, by a path from the root and by one from the working
directory. -/
def sampleDirs : List LibraryDir := [⟨"/srv//libs/."⟩, ⟨"../.././srv/libs/"⟩]

/-- A program is compiled from the directory and from memory, and another one fails with both, at
the `main` of a library. -/
theorem compile_mirrored_sample : ∀ d ∈ sampleDirs,
    (∀ text ∈ [importingText, failingText], ∀ tokens, scan text "a.idyl" = .ok tokens →
      ∀ n ∈ libraryImports (leadingImports tokens), ∀ bytes,
        sampleTree.entryIn? d.path (libraryFile n) = some (.file bytes) →
          (String.fromUTF8? bytes).isSome) ∧
    (compile {} (d.resolver sampleTree.view) importingText "a.idyl").result.isOk = true ∧
    SameOutcome (compile {} (d.resolver sampleTree.view) importingText "a.idyl").result
      (compile {} (d.snapshot sampleTree).resolver importingText "a.idyl").result ∧
    (compile {} (d.resolver sampleTree.view) failingText "a.idyl").result.isOk = false ∧
    SameOutcome (compile {} (d.resolver sampleTree.view) failingText "a.idyl").result
      (compile {} (d.snapshot sampleTree).resolver failingText "a.idyl").result := by
  intro d hd
  have himports : ∀ text ∈ [importingText, failingText],
      ((scan text "a.idyl").map fun tokens => (libraryImports (leadingImports tokens)).all
        (["squares", "rogue", "missing"].contains ·)) = .ok true := by decide +kernel
  have hentries : ∀ d ∈ sampleDirs, ∀ n ∈ ["squares", "rogue", "missing"],
      (sampleTree.entryIn? d.path (libraryFile n)).all (·.text?.isSome) = true := by
    decide +kernel
  have htexts : ∀ text ∈ [importingText, failingText], ∀ tokens, scan text "a.idyl" = .ok tokens →
      ∀ n ∈ libraryImports (leadingImports tokens), ∀ bytes,
        sampleTree.entryIn? d.path (libraryFile n) = some (.file bytes) →
          (String.fromUTF8? bytes).isSome := by
    intro text htext tokens htokens n hn bytes hentry
    have hall := himports text htext
    rw [htokens] at hall
    have hmem := List.all_eq_true.1 (Except.ok.inj hall) n hn
    simpa [hentry, Entry.text?] using hentries d hd n (by simpa using hmem)
  have hruns : ∀ d ∈ sampleDirs,
      (compile {} (d.resolver sampleTree.view) importingText "a.idyl").result.isOk = true ∧
        (compile {} (d.resolver sampleTree.view) failingText "a.idyl").result.isOk = false := by
    decide +kernel
  obtain ⟨hmirrors, hgood⟩ := compile_mirrored {} sampleTree d importingText "a.idyl"
  obtain ⟨-, hbad⟩ := compile_mirrored {} sampleTree d failingText "a.idyl"
  exact ⟨htexts, (hruns d hd).1, hgood _ hmirrors (htexts _ (by simp)), (hruns d hd).2,
    hbad _ hmirrors (htexts _ (by simp))⟩

end Idyl
