import Mathlib
import Idyl.Proofs.Compile.Origin

/-!
# Texts that errors are shown in

The files that compiling opens are kept, the program first and then its libraries, and of two files
of one name the later one counts.  So an error in a library is always shown in the text of the
library, which was opened last.  An error in the program is shown in the text of the program, unless
a file of the same name was opened for an import.

## Main definitions

* `Idyl.openedFor`, `Idyl.importedFiles` — the files that are opened for imports.
* `Idyl.Origin.Overwritten` — the program has the name of a file that is opened for an import.

## Main results

* `Idyl.opened_loadLibraries`, `Idyl.opened_loadLibraries_of_failure` — the files opened by loading
  libraries.
* `Idyl.text_registered_iff` — when an error is shown in the text that it was found in.
* `Idyl.text_overwritten` — an error in a program that is shown in the text of a library.
-/

set_option autoImplicit false

namespace Idyl

/-! ## Looking files up -/

namespace SourceMap

variable {m : SourceMap} {f : SourceFile} {fs : List SourceFile} {name : String}

/-- A file that was registered later comes before one of the same name. -/
lemma find?_registerAll (m : SourceMap) (fs : List SourceFile) (name : String) :
    (m.registerAll fs).find? name = ((⟨fs⟩ : SourceMap).find? name).or (m.find? name) := by
  rw [find?, registerAll, List.reverse_append, List.find?_append]
  rfl

/-- The file that is found has the name that was asked for. -/
lemma name_of_find? (h : m.find? name = some f) : f.name = name := by
  simpa using List.find?_some h

/-- The file that was opened last is found under its name. -/
lemma find?_registerAll_concat (m : SourceMap) (fs : List SourceFile) (f : SourceFile) :
    (m.registerAll (fs ++ [f])).find? f.name = some f := by
  have hconcat : m.registerAll (fs ++ [f]) = (m.registerAll fs).register f := by
    simp [registerAll, register]
  rw [hconcat, find?_register, if_pos rfl]

/-- The file that was opened first is found under its name if no other one is. -/
lemma find?_registerAll_cons (m : SourceMap) (fs : List SourceFile) (f : SourceFile) :
    (m.registerAll (f :: fs)).find? f.name = some (((⟨fs⟩ : SourceMap).find? f.name).getD f) := by
  have hcons : m.registerAll (f :: fs) = (m.register f).registerAll fs := by
    simp [registerAll, register]
  rw [hcons, find?_registerAll, find?_register, if_pos rfl]
  cases (⟨fs⟩ : SourceMap).find? f.name <;> rfl

end SourceMap

/-! ## Files opened by a stage -/

namespace Run

variable {α β : Type} {x : Run α} {f : α → Run β}

/-- After a success, the files of both runs are opened. -/
lemma opened_bind_ok {a : α} (h : x.result = .ok a) :
    (x >>= f).opened = x.opened ++ (f a).opened := by
  simp [bind, h]

/-- After an error nothing more is opened. -/
lemma opened_bind_error {e : CompileError} (h : x.result = .error e) :
    (x >>= f).opened = x.opened := by
  simp [bind, h]

/-- Nothing is added by a stage that opens nothing. -/
lemma opened_bind_of_forall (h : ∀ a, (f a).opened = []) : (x >>= f).opened = x.opened := by
  cases hx : x.result with
  | ok a => rw [opened_bind_ok hx, h a, List.append_nil]
  | error e => exact opened_bind_error hx

/-- A listing opens no file. -/
lemma opened_listIf (asked : Bool) (text : String) : (listIf asked text).opened = [] := by
  cases asked <;> rfl

/-- Being timed and logged opens no file. -/
lemma opened_stage (s : Settings) (name file : String) (x : Run α) :
    (stage s name file x).opened = x.opened := by
  rw [stage, opened_bind_ok (result_debug _ _)]
  cases s.verbose <;> rfl

/-- A stage that lists what it gives opens nothing. -/
lemma opened_stage_listIf (s : Settings) (name file : String) (r : Except CompileError α)
    (asked : Bool) (listing : α → String) :
    (do let a ← stage s name file (.ofExcept r)
        listIf asked (listing a)
        pure a : Run α).opened = [] := by
  rw [opened_bind_of_forall, opened_stage]
  · rfl
  · intro a
    rw [opened_bind_of_forall fun _ => rfl, opened_listIf]

end Run

section Stages

variable (s : Settings) (tokens : List Token) (p : Program) (libraries : NameSet)
  (text file : String)

/-- Scanning opens no file. -/
lemma opened_scanStage : (scanStage s text file).opened = [] :=
  Run.opened_stage_listIf ..

/-- Reading a program from tokens opens no file. -/
lemma opened_programStage : (programStage s tokens file).opened = [] :=
  Run.opened_stage_listIf ..

/-- Reading a library from tokens opens no file. -/
lemma opened_libraryStage : (libraryStage s tokens file).opened = [] :=
  Run.opened_stage_listIf ..

/-- Logging errors opens no file. -/
lemma opened_noteLater (es : List CompileError) : (noteLater es).opened = [] := by
  induction es with
  | nil => rfl
  | cons e es ih =>
    rw [noteLater, Run.opened_bind_of_forall fun _ => ih]
    rfl

/-- Checking opens no file. -/
lemma opened_checkStage : (checkStage s p libraries).opened = [] := by
  rw [checkStage, Run.opened_stage, Run.opened_bind_of_forall]
  · rfl
  · intro _
    rw [Run.opened_bind_of_forall, opened_noteLater]
    intro _
    rw [Run.opened_bind_of_forall fun _ => rfl]
    rfl

end Stages

/-! ## Files opened by imports -/

/-- The files that are opened for an import: those that the resolver opens, and the file of the
library, if it is found. -/
def openedFor (resolve : Resolver) (name : String) : List SourceFile :=
  (resolve name).opened ++ ((resolve name).result.toOption.map LibrarySource.sourceFile).toList

/-- The files that are opened for imports, for each of them once. -/
def importedFiles (resolve : Resolver) (names : List String) : List SourceFile :=
  (libraryImports names).eraseDups.flatMap (openedFor resolve)

variable {s : Settings} {resolve : Resolver} {text file : String} {e : CompileError} {o : Origin}
  {names : List String}

/-- A library that is found is opened after what its resolver opened. -/
lemma openedFor_of_found {name : String} {source : LibrarySource}
    (h : (resolve name).result = .ok source) :
    openedFor resolve name = (resolve name).opened ++ [source.sourceFile] := by
  rw [openedFor, h]
  rfl

/-- Loading a library opens what is opened for it, whether or not it can be read. -/
lemma opened_loadLibrary (s : Settings) (resolve : Resolver) (name : String) :
    (loadLibrary s resolve name).opened = openedFor resolve name := by
  cases h : (resolve name).result with
  | error e =>
    rw [loadLibrary, Run.opened_bind_error h, openedFor, h]
    exact (List.append_nil _).symm
  | ok source =>
    rw [loadLibrary, Run.opened_bind_ok h, openedFor_of_found h,
      Run.opened_bind_ok (Run.result_opening _), Run.opened_bind_of_forall, opened_scanStage]
    · rfl
    · intro tokens
      rw [Run.opened_bind_of_forall, opened_libraryStage]
      intro fs
      rw [Run.opened_bind_of_forall fun _ => rfl]
      rfl

/-- A library that can be read is loaded with its functions. -/
lemma result_loadLibrary_ok {name : String} {fs : List Function} (s : Settings)
    (h : readLibrary resolve name = .ok fs) :
    (loadLibrary s resolve name).result = .ok ⟨name, fs⟩ := by
  rw [result_loadLibrary, h]
  rfl

/-- A library that cannot be read is not loaded, for the same reason. -/
lemma result_loadLibrary_error {name : String} (s : Settings)
    (h : readLibrary resolve name = .error e) :
    (loadLibrary s resolve name).result = .error e := by
  rw [result_loadLibrary, h]
  rfl

/-- **One import**: it comes with the language, or its library is loaded already, or it is loaded
now. -/
lemma loadLibraries_cons_cases (s : Settings) (resolve : Resolver) (loaded : List Library)
    (name : String) (names : List String) :
    (libraryImports (name :: names) = libraryImports names ∧
      loadLibraries s resolve loaded (name :: names) = loadLibraries s resolve loaded names) ∨
    (libraryImports (name :: names) = name :: libraryImports names ∧
      ((name ∈ loaded.map (·.name) ∧
        loadLibraries s resolve loaded (name :: names) = loadLibraries s resolve loaded names) ∨
      (name ∉ loaded.map (·.name) ∧
        loadLibraries s resolve loaded (name :: names) = (do
          let library ← loadLibrary s resolve name
          loadLibraries s resolve (loaded ++ [library]) names)))) := by
  rw [loadLibraries]
  cases hbuiltin : isBuiltinModule name with
  | true => exact .inl ⟨by simp [libraryImports, hbuiltin], rfl⟩
  | false =>
    refine .inr ⟨by simp [libraryImports, hbuiltin], ?_⟩
    by_cases hloaded : isLoaded loaded name = true
    · exact .inl ⟨isLoaded_eq_true_iff.1 hloaded, by simp [hloaded]⟩
    · exact .inr ⟨mt isLoaded_eq_true_iff.2 hloaded, by simp [hloaded]⟩

/-- **Files opened by loading libraries.** If all of them can be read, files are opened for each
that was not loaded, once and in order. -/
lemma opened_loadLibraries (s : Settings) (loaded : List Library)
    (hall : ∀ n ∈ libraryImports names, ∃ fs, readLibrary resolve n = .ok fs) :
    (loadLibraries s resolve loaded names).opened =
      ((libraryImports names).filter (· ∉ loaded.map (·.name))).eraseDups.flatMap
        (openedFor resolve) := by
  induction names generalizing loaded with
  | nil => rfl
  | cons name names ih =>
    rcases loadLibraries_cons_cases s resolve loaded name names with
      ⟨himports, hload⟩ | ⟨himports, ⟨hmem, hload⟩ | ⟨hnew, hload⟩⟩
    · rw [hload, himports, ih loaded (himports ▸ hall)]
    · rw [himports, List.forall_mem_cons] at hall
      rw [hload, himports, List.filter_cons_of_neg (by simpa using hmem), ih loaded hall.2]
    · rw [himports, List.forall_mem_cons] at hall
      obtain ⟨⟨fs, hfs⟩, hall⟩ := hall
      have hresult := result_loadLibrary_ok s hfs
      have hfilter :
          (libraryImports names).filter (· ∉ List.map Library.name (loaded ++ [⟨name, fs⟩])) =
            ((libraryImports names).filter (· ∉ loaded.map (·.name))).filter (!· == name) := by
        rw [List.filter_filter]
        apply List.filter_congr
        intro n _
        rw [Bool.eq_iff_iff]
        simp [and_comm]
      rw [hload, Run.opened_bind_ok hresult, opened_loadLibrary, ih _ hall, himports, hfilter,
        List.filter_cons_of_pos (by simpa using hnew), List.eraseDups_cons, List.flatMap_cons]

/-- **Files opened up to a library that cannot be read**: its own file is the last. -/
lemma opened_loadLibraries_of_failure {before after : List String} {name : String}
    {source : LibrarySource} (s : Settings) (loaded : List Library)
    (himports : libraryImports names = before ++ name :: after)
    (hbefore : ∀ n ∈ before, ∃ fs, readLibrary resolve n = .ok fs)
    (hnew : name ∉ loaded.map (·.name)) (hsource : (resolve name).result = .ok source)
    (he : readSource source = .error e) :
    ∃ files, (loadLibraries s resolve loaded names).opened = files ++ [source.sourceFile] := by
  have hfail : readLibrary resolve name = .error e := (readLibrary_of_found hsource).trans he
  induction names generalizing before loaded with
  | nil => simp [libraryImports] at himports
  | cons n names ih =>
    rcases loadLibraries_cons_cases s resolve loaded n names with
      ⟨hskip, hload⟩ | ⟨hself, hcases⟩
    · rw [hload]
      exact ih loaded (hskip ▸ himports) hbefore hnew
    · rw [hself] at himports
      cases before with
      | nil =>
        -- this is the library that cannot be read
        obtain ⟨rfl, -⟩ := List.cons.inj himports
        rcases hcases with ⟨hmem, -⟩ | ⟨-, hload⟩
        · exact absurd hmem hnew
        · have hresult := result_loadLibrary_error s hfail
          refine ⟨(resolve n).opened, ?_⟩
          rw [hload, Run.opened_bind_error hresult, opened_loadLibrary, openedFor_of_found hsource]
      | cons b before =>
        obtain ⟨rfl, htail⟩ := List.cons.inj himports
        rw [List.forall_mem_cons] at hbefore
        obtain ⟨⟨fs, hfs⟩, hbefore⟩ := hbefore
        rcases hcases with ⟨-, hload⟩ | ⟨-, hload⟩
        · rw [hload]
          exact ih loaded htail hbefore hnew
        · have hresult := result_loadLibrary_ok s hfs
          have hne : name ≠ n := by
            rintro rfl
            rw [hfs] at hfail
            cases hfail
          obtain ⟨files, hfiles⟩ := ih (loaded ++ [⟨n, fs⟩]) htail hbefore
            (by simpa [hne] using hnew)
          refine ⟨openedFor resolve n ++ files, ?_⟩
          rw [hload, Run.opened_bind_ok hresult, opened_loadLibrary, hfiles, List.append_assoc]

/-! ## Files opened by compiling -/

/-- A program with a fault in its tokens is the only file opened. -/
lemma opened_compile_of_scan_error {f : LexError} (s : Settings) (resolve : Resolver)
    (h : scan text file = .error f) : (compile s resolve text file).opened = [⟨file, text⟩] := by
  have hscan : (scanStage s text file).result = .error f.report := by
    rw [result_scanStage, h]
    rfl
  rw [compile, Run.opened_bind_ok (Run.result_opening _), Run.opened_bind_error hscan,
    opened_scanStage]
  rfl

/-- The program is opened first, and then its libraries. -/
lemma opened_compile_of_scan {tokens : List Token} (s : Settings) (resolve : Resolver)
    (h : scan text file = .ok tokens) :
    (compile s resolve text file).opened =
      ⟨file, text⟩ :: (loadLibraries s resolve [] (leadingImports tokens)).opened := by
  have hscan : (scanStage s text file).result = .ok tokens := by
    rw [result_scanStage, h]
    rfl
  rw [compile, Run.opened_bind_ok (Run.result_opening _), Run.opened_bind_ok hscan,
    opened_scanStage, Run.opened_bind_of_forall]
  · rfl
  · intro libraries
    rw [Run.opened_bind_of_forall, opened_programStage]
    intro p
    rw [Run.opened_bind_of_forall, opened_checkStage]
    intro info
    rw [Run.opened_bind_of_forall fun _ => rfl]
    rfl

/-! ## Texts of errors -/

/-- The program has the name of a file that is opened for one of its imports, and the last file of
this name has another text. -/
def Origin.Overwritten (resolve : Resolver) (text file : String) : Origin → Prop
  | .program => ∃ tokens, scan text file = .ok tokens ∧
      ∃ f, (⟨importedFiles resolve (leadingImports tokens)⟩ : SourceMap).find? file = some f ∧
        f.text ≠ text
  | .library _ => False

/-- The file that is found under the name of the program has another text exactly if the program
is overwritten. -/
lemma text_getD_eq_iff {tokens : List Token} (resolve : Resolver)
    (hscan : scan text file = .ok tokens) :
    (((⟨importedFiles resolve (leadingImports tokens)⟩ : SourceMap).find? file).getD
        ⟨file, text⟩).text = text ↔ ¬ Origin.program.Overwritten resolve text file := by
  cases hfind : (⟨importedFiles resolve (leadingImports tokens)⟩ : SourceMap).find? file with
  | none =>
    refine iff_of_true rfl ?_
    rintro ⟨tokens', hscan', f, hf, -⟩
    obtain rfl : tokens = tokens' := Except.ok.inj (hscan.symm.trans hscan')
    rw [hfind] at hf
    cases hf
  | some f =>
    constructor
    · rintro htext ⟨tokens', hscan', f', hf', hne⟩
      obtain rfl : tokens = tokens' := Except.ok.inj (hscan.symm.trans hscan')
      obtain rfl : f = f' := Option.some.inj (hfind.symm.trans hf')
      exact hne htext
    · intro hnot
      by_contra hne
      exact hnot ⟨tokens, hscan, f, hfind, hne⟩

/-- **What is found under the name of an error.** One file is found under the name that an error
carries, whatever files were read before.  It has the text in which the error was found unless this
is overwritten.

**Proof sketch.** The file of a library in which an error is found was opened last.  The file of the
program was opened first, and behind it those for imports, if the text has tokens at all. -/
lemma FoundIn.registered (h : FoundIn resolve text file e o) (s : Settings) :
    ∃ f, e.file? = some f.name ∧
      (∀ m : SourceMap,
        (m.registerAll (compile s resolve text file).opened).find? f.name = some f) ∧
      (f.text = (o.sourceFile text file).text ↔ ¬ o.Overwritten resolve text file) := by
  have hfile := h.liesIn.file_eq
  cases h with
  | scanning hscan =>
    refine ⟨⟨file, text⟩, hfile, fun m => ?_, iff_of_true rfl ?_⟩
    · rw [opened_compile_of_scan_error s resolve hscan]
      exact m.find?_registerAll_concat [] ⟨file, text⟩
    · rintro ⟨tokens, hscan', -⟩
      rw [hscan] at hscan'
      cases hscan'
  | @library tokens _ _ _ source hscan himports hbefore hsource he =>
    refine ⟨source.sourceFile, hfile, fun m => ?_, iff_of_true rfl id⟩
    obtain ⟨files, hfiles⟩ :=
      opened_loadLibraries_of_failure s [] himports hbefore (by simp) hsource he
    rw [opened_compile_of_scan s resolve hscan, hfiles, ← List.cons_append]
    exact m.find?_registerAll_concat _ source.sourceFile
  | @checking tokens hscan himports he =>
    have hopened : (compile s resolve text file).opened =
        ⟨file, text⟩ :: importedFiles resolve (leadingImports tokens) := by
      rw [opened_compile_of_scan s resolve hscan, opened_loadLibraries s [] himports, importedFiles]
      simp
    have hfind : ∀ m : SourceMap, (m.registerAll (compile s resolve text file).opened).find? file =
        some (((⟨importedFiles resolve (leadingImports tokens)⟩ : SourceMap).find? file).getD
          ⟨file, text⟩) := by
      intro m
      rw [hopened]
      exact m.find?_registerAll_cons _ ⟨file, text⟩
    have htext := text_getD_eq_iff resolve hscan
    generalize ((⟨importedFiles resolve (leadingImports tokens)⟩ : SourceMap).find? file).getD
      ⟨file, text⟩ = f at hfind htext
    have hname : f.name = file := SourceMap.name_of_find? (hfind {})
    refine ⟨f, ?_, fun m => ?_, htext⟩
    · rw [hname]
      exact hfile
    · rw [hname]
      exact hfind m

/-- **When an error is shown in the text that it was found in.** Whatever files were read before, an
error of compiling that is found in a text carries the name of a file that is known afterwards.  The
file has the text in which the error was found, unless this is the text of the program and a file
of the same name with another text is opened for one of its imports, as the last one of this name.
In particular an error in a library is always shown in the text of the library.

**Proof sketch.** By `compile_error_cases` and `FoundIn.registered`. -/
theorem text_registered_iff (s : Settings) (resolve : Resolver) (text file : String)
    (m : SourceMap) {e : CompileError} (h : (compile s resolve text file).result = .error e) :
    (Unresolved resolve text file e ∨ ∃ o, FoundIn resolve text file e o) ∧
      ∀ o, FoundIn resolve text file e o →
        ∃ f, e.file? = some f.name ∧
          (m.registerAll (compile s resolve text file).opened).find? f.name = some f ∧
          (f.text = (o.sourceFile text file).text ↔ ¬ o.Overwritten resolve text file) := by
  refine ⟨compile_error_cases h, fun o ho => ?_⟩
  obtain ⟨f, hfile, hfind, htext⟩ := ho.registered s
  exact ⟨f, hfile, hfind m, htext⟩

/-- The library with a stray character, as it is found. -/
def accentedSource : LibrarySource :=
  ⟨"accents", "accents.idyl", "// é\nint function f() \x7b return 日; \x7d"⟩

/-- The stray character of the sample library is found in that library. -/
lemma foundIn_accents : FoundIn accentedLibraries.resolver accentedImport "accents.idyl"
    accentedError (.library accentedSource) := by
  have hscan : (scan accentedImport "accents.idyl").map leadingImports = .ok ["accents"] := by
    decide +kernel
  obtain ⟨tokens, hscan, himports⟩ := except_map_eq_ok.1 hscan
  have hread : (readSource accentedSource).map (fun _ => ()) = .error accentedError := by
    decide +kernel
  refine @FoundIn.library _ _ _ _ tokens [] [] "accents" accentedSource hscan ?_ (by simp) rfl
    (except_map_eq_error.1 hread)
  rw [himports]
  decide

/-- An error in a library is shown in its text, even if the program has the name of its file. -/
theorem text_registered_iff_sample :
    (compile {} accentedLibraries.resolver accentedImport "accents.idyl").result =
        .error accentedError ∧
      FoundIn accentedLibraries.resolver accentedImport "accents.idyl" accentedError
        (.library accentedSource) ∧
      ∃ f, accentedError.file? = some f.name ∧
        (SourceMap.registerAll {}
          (compile {} accentedLibraries.resolver accentedImport "accents.idyl").opened).find?
            f.name = some f ∧
        f.text = accentedSource.text := by
  have herror : (compile {} accentedLibraries.resolver accentedImport "accents.idyl").result.map
      (fun _ => ()) = .error accentedError := by decide +kernel
  rw [except_map_eq_error] at herror
  obtain ⟨f, hname, hfind, htext⟩ :=
    (text_registered_iff {} _ _ _ {} herror).2 _ foundIn_accents
  exact ⟨herror, foundIn_accents, f, hname, hfind, htext.2 id⟩

/-- A library without faults. -/
def namesakeSource : LibrarySource :=
  ⟨"a", "a.idyl", "int function one() \x7b return 1; \x7d"⟩

/-- A program with an undeclared variable, which imports a library. -/
def namesakeText : String := "use a;\nmain() \x7b int x = y; \x7d"

/-- The undeclared variable, as it is reported. -/
def namesakeError : CompileError :=
  .inText .checking "variable 'y' is not declared" "a.idyl" ⟨24, 25, 2, 18⟩

/-- An error that is found in a program need not be shown in its text: if the program has the name
of the file of a library, the text of the library is found. -/
theorem text_overwritten :
    let libraries : MemoryLibraries := ⟨[("a", namesakeSource.text)]⟩
    let run := compile {} libraries.resolver namesakeText "a.idyl"
    run.result = .error namesakeError ∧
      FoundIn libraries.resolver namesakeText "a.idyl" namesakeError .program ∧
      (SourceMap.registerAll {} run.opened).find? "a.idyl" = some namesakeSource.sourceFile ∧
      namesakeSource.text ≠ namesakeText := by
  intro libraries run
  have herror : run.result.map (fun _ => ()) = .error namesakeError := by decide +kernel
  have hcheck : (scan namesakeText "a.idyl").map (fun tokens =>
      (libraryImports (leadingImports tokens),
        (readAndCheck tokens (.ofList (libraryImports (leadingImports tokens)))).map fun _ => ())) =
      .ok (["a"], .error namesakeError) := by decide +kernel
  obtain ⟨tokens, hscan, hpair⟩ := except_map_eq_ok.1 hcheck
  obtain ⟨himports, hcheck⟩ := Prod.mk.inj hpair
  refine ⟨except_map_eq_error.1 herror, .checking hscan ?_ (except_map_eq_error.1 hcheck),
    by decide +kernel, by decide⟩
  intro n hn
  obtain rfl : n = "a" := by simpa [himports] using hn
  exact exists_ok_of_isOk (by decide +kernel)

end Idyl
