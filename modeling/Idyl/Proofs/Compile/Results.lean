import Mathlib
import Idyl.Compile

/-!
# Results of compiling

What the stages of compilation give, apart from the notes they write and the files they open.  A
program is compiled by reading the libraries that it imports, in the order of import, and then
doing what the front end does; the first thing that goes wrong is the outcome.

The front end and the compiler are two sequences of stages.  They differ in the stage that loads
libraries, of which only the names, and the first error, matter for the program.

## Main definitions

* `Idyl.readLibrary` — the functions of a library, found by its name.
* `Idyl.libraryImports` — the imports that are libraries.
* `Idyl.readAndCheck` — what the front end does with tokens.
* `Idyl.Loaded` — the libraries that some imports ask for.

## Main results

* `Idyl.loadLibraries_cases` — all libraries are loaded, or the first one that cannot be read is
  reported.
* `Idyl.compile_agrees_frontEnd` — the compiler agrees with the front end.
-/

set_option autoImplicit false

namespace Idyl

/-! ## Stages -/

/-- After a success the rest decides. -/
lemma ok_bind {ε α β : Type} (a : α) (f : α → Except ε β) : (.ok a >>= f) = f a := rfl

/-- An error ends the computation. -/
lemma error_bind {ε α β : Type} (e : ε) (f : α → Except ε β) : (.error e >>= f) = .error e := rfl

/-- Two computations in a row succeed if both do. -/
lemma except_bind_eq_ok {ε α β : Type} {x : Except ε α} {f : α → Except ε β} {b : β} :
    (x >>= f) = .ok b ↔ ∃ a, x = .ok a ∧ f a = .ok b := by
  cases x with
  | error e => simp [error_bind]
  | ok a => simp [ok_bind]

/-- Changing the value does not change whether there is one. -/
lemma except_map_eq_ok {ε α β : Type} {x : Except ε α} {f : α → β} {b : β} :
    x.map f = .ok b ↔ ∃ a, x = .ok a ∧ f a = b := by
  cases x <;> simp [Except.map]

/-- Changing the error leaves a success alone. -/
lemma except_mapError_eq_ok {ε ε' α : Type} {x : Except ε α} {f : ε → ε'} {a : α} :
    x.mapError f = .ok a ↔ x = .ok a := by
  cases x <;> simp [Except.mapError]

/-- A success has a value. -/
lemma exists_ok_of_isOk {ε α : Type} {x : Except ε α} (h : x.isOk = true) : ∃ a, x = .ok a := by
  cases x with
  | error e => cases h
  | ok a => exact ⟨a, rfl⟩

namespace Run

variable {α : Type}

/-- The result of a run that does nothing else. -/
@[simp] lemma result_ofExcept (r : Except CompileError α) : (ofExcept r).result = r := rfl

/-- Opening a file succeeds. -/
@[simp] lemma result_opening (file : SourceFile) : (opening file).result = .ok () := rfl

/-- Logging succeeds. -/
@[simp] lemma result_debug (source message : String) : (debug source message).result = .ok () := rfl

/-- Listing succeeds. -/
@[simp] lemma result_listIf (asked : Bool) (text : String) :
    (listIf asked text).result = .ok () := by
  cases asked <;> rfl

/-- Being timed and logged does not change a result. -/
@[simp] lemma result_stage (s : Settings) (name file : String) (x : Run α) :
    (stage s name file x).result = x.result := by
  rw [stage, result_bind, result_debug]
  cases s.verbose <;> rfl

end Run

section Stages

variable (s : Settings) (tokens : List Token) (p : Program) (libraries : NameSet)
  (text file : String)

/-- The scanning stage gives the tokens, or reports the fault. -/
@[simp] lemma result_scanStage :
    (scanStage s text file).result = (scan text file).mapError LexError.report := by
  cases h : scan text file <;> simp [scanStage, h, Except.mapError, ok_bind, error_bind]

/-- The parsing stage gives the program, or reports the syntax error. -/
@[simp] lemma result_programStage :
    (programStage s tokens file).result = (parseTokens tokens).mapError SyntaxError.report := by
  cases h : parseTokens tokens <;> simp [programStage, h, Except.mapError, ok_bind, error_bind]

/-- The parsing stage of a library gives its functions, or reports the syntax error. -/
@[simp] lemma result_libraryStage :
    (libraryStage s tokens file).result =
      (parseLibraryTokens tokens).mapError SyntaxError.report := by
  cases h : parseLibraryTokens tokens <;>
    simp [libraryStage, h, Except.mapError, ok_bind, error_bind]

/-- Logging the later errors succeeds. -/
@[simp] lemma result_noteLater (es : List CompileError) : (noteLater es).result = .ok () := by
  induction es with
  | nil => rfl
  | cons e es ih => rw [noteLater, Run.result_bind, Run.result_debug]; exact ih

/-- The checking stage gives the names of the program, or the first error. -/
@[simp] lemma result_checkStage :
    (checkStage s p libraries).result =
      (diagnose p libraries).toExcept.map fun _ => p.info libraries := by
  cases h : (diagnose p libraries).toExcept <;>
    simp [checkStage, h, Except.map, ok_bind, error_bind]

/-- What the front end does with tokens: it reads a program and checks it. -/
def readAndCheck : Except CompileError (Program × ProgramInfo) := do
  let p ← (parseTokens tokens).mapError SyntaxError.report
  let info ← (diagnose p libraries).toExcept.map fun _ => p.info libraries
  pure (p, info)

/-- The stages of one file, one after the other. -/
lemma result_frontEnd :
    (frontEnd s text file libraries).result = (do
      let tokens ← (scan text file).mapError LexError.report
      readAndCheck tokens libraries) := by
  rw [frontEnd, Run.result_bind, result_scanStage]
  congr 1
  funext tokens
  rw [Run.result_bind, result_programStage, readAndCheck]
  congr 1
  funext p
  rw [Run.result_bind, result_checkStage]
  rfl

end Stages

/-! ## Libraries -/

/-- The functions of a library, found by its name: the library is looked for, its text is cut into
tokens, and these are read as a library. -/
def readLibrary (resolve : Resolver) (name : String) : Except CompileError (List Function) := do
  let source ← (resolve name).result
  let tokens ← (scan source.text source.file).mapError LexError.report
  (parseLibraryTokens tokens).mapError SyntaxError.report

/-- The imports that do not come with the language. -/
def libraryImports (names : List String) : List String := names.filter (!isBuiltinModule ·)

/-- Libraries are picked from each part of the imports. -/
lemma libraryImports_append (names names' : List String) :
    libraryImports (names ++ names') = libraryImports names ++ libraryImports names' :=
  List.filter_append _ _

variable {s : Settings} {resolve : Resolver} {name : String} {seen names : List String}
  {loaded : List Library}

/-- A library is loaded with the functions that can be read from it. -/
lemma result_loadLibrary (s : Settings) (resolve : Resolver) (name : String) :
    (loadLibrary s resolve name).result = (readLibrary resolve name).map (⟨name, ·⟩) := by
  simp only [loadLibrary, readLibrary, Run.result_bind, Run.result_opening, result_scanStage,
    result_libraryStage, Run.result_debug, Run.result_pure]
  cases (resolve name).result with
  | error e => rfl
  | ok source =>
    simp only [ok_bind]
    cases (scan source.text source.file).mapError LexError.report with
    | error e => rfl
    | ok tokens =>
      simp only [ok_bind]
      cases (parseLibraryTokens tokens).mapError SyntaxError.report <;> rfl

/-- The libraries that some imports ask for, each once, with the functions that are read from its
text. -/
structure Loaded (resolve : Resolver) (names : List String) (loaded : List Library) : Prop where
  functions_eq : ∀ l ∈ loaded, readLibrary resolve l.name = .ok l.functions
  mem_iff : ∀ n, n ∈ loaded.map (·.name) ↔ n ∈ libraryImports names
  nodup : (loaded.map (·.name)).Nodup

/-- Without imports nothing is loaded. -/
lemma Loaded.nil (resolve : Resolver) : Loaded resolve [] [] :=
  ⟨by simp, by simp [libraryImports], List.nodup_nil⟩

/-- Libraries that are loaded can be read. -/
lemma Loaded.readable (h : Loaded resolve names loaded) {n : String}
    (hn : n ∈ libraryImports names) : ∃ fs, readLibrary resolve n = .ok fs := by
  obtain ⟨l, hl, rfl⟩ := List.mem_map.1 ((h.mem_iff n).2 hn)
  exact ⟨l.functions, h.functions_eq l hl⟩

/-- Nothing is loaded for a module that comes with the language, or that is loaded already. -/
lemma Loaded.skip (h : Loaded resolve seen loaded)
    (hname : isBuiltinModule name = true ∨ name ∈ loaded.map (·.name)) :
    Loaded resolve (seen ++ [name]) loaded := by
  refine ⟨h.functions_eq, fun n => ?_, h.nodup⟩
  rw [libraryImports_append, List.mem_append, h.mem_iff, iff_self_or]
  intro hn
  obtain ⟨hmem, hbuiltin⟩ := List.mem_filter.1 hn
  obtain rfl := List.mem_singleton.1 hmem
  rcases hname with hname | hname
  · simp [hname] at hbuiltin
  · exact (h.mem_iff n).1 hname

/-- A library is loaded that was not loaded before. -/
lemma Loaded.push (h : Loaded resolve seen loaded) (hbuiltin : isBuiltinModule name = false)
    (hnew : name ∉ loaded.map (·.name)) {fs : List Function}
    (hread : readLibrary resolve name = .ok fs) :
    Loaded resolve (seen ++ [name]) (loaded ++ [⟨name, fs⟩]) := by
  have hself : libraryImports [name] = [name] := by simp [libraryImports, hbuiltin]
  refine ⟨fun l hl => ?_, fun n => ?_, ?_⟩
  · rcases List.mem_append.1 hl with hl | hl
    · exact h.functions_eq l hl
    · obtain rfl := List.mem_singleton.1 hl
      exact hread
  · rw [libraryImports_append, hself, List.map_append, List.mem_append, List.mem_append, h.mem_iff]
    rfl
  · rw [List.map_append, List.nodup_append]
    refine ⟨h.nodup, List.nodup_singleton _, ?_⟩
    rintro n hn m hm rfl
    obtain rfl : n = name := by simpa using hm
    exact hnew hn

/-- A library is loaded if one of its name is. -/
lemma isLoaded_eq_true_iff : isLoaded loaded name = true ↔ name ∈ loaded.map (·.name) := by
  simp [isLoaded, List.mem_map]

/-- **One import.** What is loaded stays what the imports so far ask for, or the import cannot be
read and that is the outcome. -/
lemma loadLibraries_step (h : Loaded resolve seen loaded) (s : Settings) (name : String)
    (names : List String) :
    (∃ loaded', Loaded resolve (seen ++ [name]) loaded' ∧
      (loadLibraries s resolve loaded (name :: names)).result =
        (loadLibraries s resolve loaded' names).result) ∨
    ∃ e, libraryImports [name] = [name] ∧ readLibrary resolve name = .error e ∧
      (loadLibraries s resolve loaded (name :: names)).result = .error e := by
  rw [loadLibraries]
  by_cases hskip : isBuiltinModule name = true ∨ isLoaded loaded name = true
  · rw [if_pos (by simpa using hskip)]
    exact .inl ⟨loaded, h.skip (hskip.imp_right isLoaded_eq_true_iff.1), rfl⟩
  · rw [if_neg (by simpa using hskip), Run.result_bind, result_loadLibrary]
    obtain ⟨hbuiltin, hnew⟩ := not_or.1 hskip
    rw [isLoaded_eq_true_iff] at hnew
    rw [Bool.not_eq_true] at hbuiltin
    cases hread : readLibrary resolve name with
    | ok fs => exact .inl ⟨_, h.push hbuiltin hnew hread, rfl⟩
    | error e => exact .inr ⟨e, by simp [libraryImports, hbuiltin], rfl, rfl⟩

/-- Some imports cannot all be read, and `e` is what the first one in order that cannot gives. -/
def FirstFailure (resolve : Resolver) (names : List String) (e : CompileError) : Prop :=
  ∃ before name after, names = before ++ name :: after ∧
    (∀ n ∈ before, ∃ fs, readLibrary resolve n = .ok fs) ∧ readLibrary resolve name = .error e

/-- **All imports.** All libraries are loaded that the imports ask for, or the first one that cannot
be read is the outcome.

**Proof sketch.** Induction on the imports, by `loadLibraries_step`.  What is loaded for an import
can be read, so it may stand before the first failure of the others. -/
lemma loadLibraries_cases (s : Settings) (names : List String) (h : Loaded resolve seen loaded) :
    (∃ loaded', (loadLibraries s resolve loaded names).result = .ok loaded' ∧
      Loaded resolve (seen ++ names) loaded') ∨
    ∃ e, FirstFailure resolve (libraryImports names) e ∧
      (loadLibraries s resolve loaded names).result = .error e := by
  induction names generalizing seen loaded with
  | nil => exact .inl ⟨loaded, rfl, by rwa [List.append_nil]⟩
  | cons name names ih =>
    have hsplit : libraryImports (name :: names) = libraryImports [name] ++ libraryImports names :=
      libraryImports_append [name] names
    rcases loadLibraries_step h s name names with ⟨loaded', h', hresult⟩ | ⟨e, hself, he, hresult⟩
    · rw [hresult]
      rcases ih h' with
        ⟨loaded'', hok, hloaded⟩ | ⟨e, ⟨before, n, after, hnames, hbefore, he⟩, herr⟩
      · exact .inl ⟨loaded'', hok, by simpa using hloaded⟩
      · refine .inr ⟨e, ⟨libraryImports [name] ++ before, n, after, ?_, fun m hm => ?_, he⟩, herr⟩
        · rw [hsplit, hnames, List.append_assoc]
        · rcases List.mem_append.1 hm with hm | hm
          · refine h'.readable ?_
            rw [libraryImports_append]
            exact List.mem_append_right _ hm
          · exact hbefore m hm
    · refine .inr ⟨e, ⟨[], name, libraryImports names, ?_, by simp, he⟩, hresult⟩
      rw [hsplit, hself]
      rfl

/-! ## The whole -/

/-- Sets with the same members are equal. -/
lemma NameSet.eq_of_mem_iff {a b : NameSet} (h : ∀ n, n ∈ a ↔ n ∈ b) : a = b := by
  obtain ⟨names, ordered⟩ := a
  obtain ⟨names', ordered'⟩ := b
  obtain rfl : names = names' := ordered.eq_of_mem_iff ordered' h
  rfl

/-- The libraries that were loaded are those that are imported. -/
lemma Loaded.libraryNames_eq (h : Loaded resolve names loaded) :
    libraryNames loaded = .ofList (libraryImports names) := by
  refine NameSet.eq_of_mem_iff fun n => ?_
  rw [libraryNames, NameSet.mem_ofList, NameSet.mem_ofList, h.mem_iff]

/-- **What compiling gives**: the tokens of the text decide which libraries are loaded; the rest is
done by the front end. -/
lemma result_compile (s : Settings) (resolve : Resolver) (text file : String) :
    (compile s resolve text file).result = (do
      let tokens ← (scan text file).mapError LexError.report
      let libraries ← (loadLibraries s resolve [] (leadingImports tokens)).result
      (readAndCheck tokens (libraryNames libraries)).map fun q => ⟨q.1, q.2, libraries⟩) := by
  simp only [compile, Run.result_bind, Run.result_opening, result_scanStage, result_programStage,
    result_checkStage, Run.result_debug, Run.result_pure, ok_bind, readAndCheck]
  congr 1
  funext tokens
  congr 1
  funext libraries
  cases (parseTokens tokens).mapError SyntaxError.report with
  | error e => rfl
  | ok p =>
    simp only [ok_bind]
    cases (diagnose p (libraryNames libraries)).toExcept <;> rfl

/-- **The compiler agrees with the front end, and errors have a fixed precedence.** If the text has
a piece that is no token, this is the error of both.  If otherwise all libraries that the text
imports can be read, the compiler gives the program and what it is known by, or the error, that
the front end gives for the names of these libraries.  If otherwise, the compiler gives the error
of the first library in order of import that cannot be read.

**Proof sketch.** By `loadLibraries_cases` either all libraries are loaded, and then by
`Loaded.libraryNames_eq` the front end is given the same names, or the first failure is the
outcome of loading and so of compiling. -/
theorem compile_agrees_frontEnd (s s' : Settings) (resolve : Resolver) (text file : String) :
    (∀ e, scan text file = .error e →
      (compile s resolve text file).result = .error e.report ∧
        ∀ libraries, (frontEnd s' text file libraries).result = .error e.report) ∧
    ∀ tokens, scan text file = .ok tokens →
      ((∀ n ∈ libraryImports (leadingImports tokens), ∃ fs, readLibrary resolve n = .ok fs) →
        (compile s resolve text file).result.map (fun c => (c.program, c.info)) =
          (frontEnd s' text file (.ofList (libraryImports (leadingImports tokens)))).result) ∧
      (¬ (∀ n ∈ libraryImports (leadingImports tokens), ∃ fs, readLibrary resolve n = .ok fs) →
        ∃ e, FirstFailure resolve (libraryImports (leadingImports tokens)) e ∧
          (compile s resolve text file).result = .error e) := by
  refine ⟨fun e he => ⟨?_, fun libraries => ?_⟩, fun tokens htokens => ?_⟩
  · rw [result_compile, he]
    rfl
  · rw [result_frontEnd, he]
    rfl
  have hcompile : (compile s resolve text file).result =
      ((loadLibraries s resolve [] (leadingImports tokens)).result >>= fun libraries =>
        (readAndCheck tokens (libraryNames libraries)).map fun q => ⟨q.1, q.2, libraries⟩) := by
    rw [result_compile, htokens]
    rfl
  rcases loadLibraries_cases s (leadingImports tokens) (Loaded.nil resolve) with
    ⟨loaded, hok, hloaded⟩ | ⟨e, hfail, herr⟩
  · have hreadable : ∀ n ∈ libraryImports (leadingImports tokens),
        ∃ fs, readLibrary resolve n = .ok fs := fun n hn => hloaded.readable hn
    refine ⟨fun _ => ?_, fun hnot => absurd hreadable hnot⟩
    have hfront : ∀ libraries, (frontEnd s' text file libraries).result =
        readAndCheck tokens libraries := by
      intro libraries
      rw [result_frontEnd, htokens]
      rfl
    rw [hcompile, hok, ok_bind, hloaded.libraryNames_eq, hfront, List.nil_append]
    cases readAndCheck tokens (.ofList (libraryImports (leadingImports tokens))) <;> rfl
  · refine ⟨fun hall => ?_, fun _ => ⟨e, hfail, by rw [hcompile, herr]; rfl⟩⟩
    obtain ⟨before, n, after, hnames, -, he⟩ := hfail
    obtain ⟨fs, hfs⟩ := hall n (by simp [hnames])
    simp [hfs] at he

/-- A library that can be read, and one that cannot, since it has a `main`. -/
def sampleLibraries : MemoryLibraries :=
  ⟨[("squares", "use time; int function sq(int n) \x7b return n * n; \x7d"),
    ("rogue", "main() \x7b \x7d")]⟩

/-- A program that imports a library twice, and a module that comes with the language. -/
def importingText : String :=
  "use squares; use console; use squares;\n" ++
    "int function f(int n) \x7b return n; \x7d main() \x7b squares.sq(f(3)); \x7d"

/-- A program with two imports that cannot be read, and a fault behind them. -/
def failingText : String := "use squares; use time; use rogue; use missing; main( \x7b int x ="

/-- The program that imports a library twice is given by the front end too, and the first of two
imports that cannot be read is reported in front of a fault. -/
theorem compile_agrees_frontEnd_sample :
    (∃ tokens, scan importingText "a.idyl" = .ok tokens ∧
      (∀ n ∈ libraryImports (leadingImports tokens),
        ∃ fs, readLibrary sampleLibraries.resolver n = .ok fs) ∧
      (compile {} sampleLibraries.resolver importingText "a.idyl").result.map
          (fun c => (c.program, c.info)) =
        (frontEnd {} importingText "a.idyl"
          (.ofList (libraryImports (leadingImports tokens)))).result) ∧
    ∃ tokens, scan failingText "a.idyl" = .ok tokens ∧
      ¬ (∀ n ∈ libraryImports (leadingImports tokens),
        ∃ fs, readLibrary sampleLibraries.resolver n = .ok fs) ∧
      ∃ e, FirstFailure sampleLibraries.resolver (libraryImports (leadingImports tokens)) e ∧
        (compile {} sampleLibraries.resolver failingText "a.idyl").result = .error e := by
  have hgood : (scan importingText "a.idyl").map leadingImports =
      .ok ["squares", "console", "squares"] := by decide +kernel
  have hbad : (scan failingText "a.idyl").map leadingImports =
      .ok ["squares", "time", "rogue", "missing"] := by decide +kernel
  obtain ⟨tokens, hscan, himports⟩ := except_map_eq_ok.1 hgood
  obtain ⟨tokens', hscan', himports'⟩ := except_map_eq_ok.1 hbad
  have hsquares : ∃ fs, readLibrary sampleLibraries.resolver "squares" = .ok fs :=
    exists_ok_of_isOk (by decide +kernel)
  have hrogue : (readLibrary sampleLibraries.resolver "rogue").isOk = false := by decide +kernel
  have hall : ∀ n ∈ libraryImports (leadingImports tokens),
      ∃ fs, readLibrary sampleLibraries.resolver n = .ok fs := by
    intro n hn
    rw [himports] at hn
    obtain rfl : n = "squares" := by revert n; decide
    exact hsquares
  have hnot : ¬ (∀ n ∈ libraryImports (leadingImports tokens'),
      ∃ fs, readLibrary sampleLibraries.resolver n = .ok fs) := by
    intro h
    rw [himports'] at h
    obtain ⟨fs, hfs⟩ := h "rogue" (by decide)
    rw [hfs] at hrogue
    cases hrogue
  exact ⟨⟨tokens, hscan, hall, ((compile_agrees_frontEnd {} {} _ _ _).2 tokens hscan).1 hall⟩,
    tokens', hscan', hnot, ((compile_agrees_frontEnd {} {} _ _ _).2 tokens' hscan').2 hnot⟩

end Idyl
