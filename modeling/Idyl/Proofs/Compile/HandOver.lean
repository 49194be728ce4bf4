import Mathlib
import Idyl.Proofs.Compile.Results
import Idyl.Proofs.Grammar.Sentence
import Idyl.Proofs.Token.Steps
import Idyl.Proofs.Typing.Accepts

/-!
# What compiling hands over

Imports are found twice: from the tokens of a text, three at a time, before it is known whether
they spell a program, and by the grammar.  A program that is compiled has no fault, so both find
the same imports; what is known of the program and its libraries fits together.

## Main definitions

* `Idyl.Consistent` — a compiled program and its libraries fit together.

## Main results

* `Idyl.leadingImports_of_parse` — the leading imports of tokens that spell a program are those of
  the program.
* `Idyl.compile_consistent` — whatever is compiled is consistent.
-/

set_option autoImplicit false

namespace Idyl

open Grammar

/-! ## Imports -/

/-- An import at the front is the first of the leading imports. -/
lemma leadingImports_importLine {tokens : List Token} {name : String} {ks : List TokenKind}
    (h : kinds tokens = .keyword .use :: .identifier name :: .punct .semi :: ks) :
    ∃ rest, kinds rest = ks ∧ leadingImports tokens = name :: leadingImports rest := by
  obtain ⟨t, _, rfl, ht, h⟩ := kinds_eq_cons h
  obtain ⟨u, _, rfl, hu, h⟩ := kinds_eq_cons h
  obtain ⟨v, rest, rfl, hv, h⟩ := kinds_eq_cons h
  exact ⟨rest, h, by rw [leadingImports, ht, hu, hv]⟩

/-- Where no import is ahead, there is no leading one. -/
lemma leadingImports_eq_nil {tokens : List Token} (h : importAhead tokens = false) :
    leadingImports tokens = [] := by
  unfold leadingImports
  split
  · next t u v ts =>
    split
    · next huse _ _ => simp [importAhead, peek, huse] at h
    · rfl
  · rfl

/-- Lines of imports are found as long as no other import follows. -/
lemma leadingImports_of_lines {ks ks' : List TokenKind} {is : List Import} {tokens : List Token}
    (h : Repeated ImportLine ks is) (hk : kinds tokens = ks ++ ks')
    (hstop : ∀ ts, kinds ts = ks' → importAhead ts = false) :
    leadingImports tokens = is.map (·.name) := by
  induction h generalizing tokens with
  | nil => exact leadingImports_eq_nil (hstop tokens hk)
  | cons head _ ih =>
    cases head with
    | mk =>
      obtain ⟨rest, hrest, hleading⟩ := leadingImports_importLine hk
      rw [hleading, ih hrest]
      rfl

/-- The leading imports of tokens that spell a program are its imports. -/
lemma leadingImports_of_sentence {tokens : List Token} {q : Program}
    (h : Sentence (kinds tokens) q) : leadingImports tokens = q.imports.map (·.name) := by
  generalize hk : kinds tokens = ks at h
  cases h with
  | mk himports hfunctions hmain =>
    exact leadingImports_of_lines himports hk fun ts hts =>
      importAhead_eq_false hfunctions hmain hts

/-- The imports of a program that is read from the tokens of a text are its leading imports. -/
lemma leadingImports_of_parse {text file : String} {tokens : List Token} {p : Program}
    (hscan : scan text file = .ok tokens) (hparse : parseTokens tokens = .ok p) :
    p.imports.map (·.name) = leadingImports tokens := by
  obtain ⟨body, last, rfl, hlast, hbody⟩ := scan_kinds hscan
  have hend : .endOfFile ∉ kinds body := by
    intro hmem
    obtain ⟨t, ht, hkind⟩ := List.mem_map.1 hmem
    exact absurd (hbody t ht) (by rw [hkind]; exact id)
  obtain ⟨rest, hrule⟩ := (parseTokens_eq_ok hlast hend).1 hparse
  have hsentence := (programRule_sound hend hrule).1
  have hkinds : kinds (body ++ [last]) = kinds body ++ [.endOfFile] := by simp [kinds, hlast]
  rw [← hkinds] at hsentence
  rw [leadingImports_of_sentence hsentence, Program.bare, List.map_map]
  rfl

/-! ## Checked programs -/

/-- Success means that no error was found. -/
lemma toExcept_eq_ok_iff {d : Diagnostics} : d.toExcept = .ok () ↔ d.errors = [] := by
  unfold Diagnostics.toExcept
  split <;> simp_all

/-- The functions of a program without errors have different names. -/
lemma nodup_of_diagnose {p : Program} {libraries : NameSet}
    (h : (diagnose p libraries).toExcept = .ok ()) : (p.functions.map (·.name)).Nodup := by
  have hfindings : findings p libraries = [] := by
    simpa [diagnose, checkProgram] using toExcept_eq_ok_iff.1 h
  rw [findings, List.append_eq_nil_iff, Typing.checkNames_eq_nil_iff] at hfindings
  exact hfindings.1.1

/-- A program that the front end accepts was read from the tokens, and has no errors. -/
lemma readAndCheck_eq_ok {tokens : List Token} {libraries : NameSet} {p : Program}
    {info : ProgramInfo} (h : readAndCheck tokens libraries = .ok (p, info)) :
    parseTokens tokens = .ok p ∧ (diagnose p libraries).toExcept = .ok () ∧
      info = p.info libraries := by
  simp only [readAndCheck, except_bind_eq_ok, except_mapError_eq_ok, except_map_eq_ok] at h
  obtain ⟨q, hparse, info', ⟨_, hdiagnose, rfl⟩, hpair⟩ := h
  obtain ⟨rfl, rfl⟩ := Prod.mk.inj (Except.ok.inj hpair)
  exact ⟨hparse, hdiagnose, rfl⟩

/-! ## Compiled programs -/

/-- A compiled program and its libraries fit together: with the tokens of its text, with what is
known of the program, and with what is found of the libraries. -/
structure Consistent (resolve : Resolver) (tokens : List Token) (c : Compiled) : Prop where
  /-- The imports of the program are the leading imports of its tokens. -/
  imports_eq : c.program.imports.map (·.name) = leadingImports tokens
  /-- The program is known to import them. -/
  imports_known : c.info.imports = .ofList (c.program.imports.map (·.name))
  /-- No library was read twice. -/
  libraries_nodup : (c.libraries.map (·.name)).Nodup
  /-- The libraries that were read are those that the program was checked with. -/
  libraries_known : libraryNames c.libraries = c.info.libraries
  /-- They are the imports that do not come with the language. -/
  mem_libraries_iff : ∀ n, n ∈ c.info.libraries ↔
    n ∈ c.info.imports ∧ n ∉ ["console", "random", "time", "file"]
  /-- Every library holds the functions that are read from the text that is found for it. -/
  functions_read : ∀ l ∈ c.libraries, ∃ source ts, (resolve l.name).result = .ok source ∧
    scan source.text source.file = .ok ts ∧ parseLibraryTokens ts = .ok l.functions
  /-- The program is known by the names of its functions. -/
  functions_known : c.info.functions = .ofList (c.program.functions.map (·.name))
  /-- No two functions of the program have one name. -/
  functions_nodup : (c.program.functions.map (·.name)).Nodup

/-- Libraries are the imported modules that do not come with the language. -/
lemma mem_libraryImports_iff {names : List String} {n : String} :
    n ∈ libraryImports names ↔ n ∈ names ∧ n ∉ ["console", "random", "time", "file"] := by
  rw [libraryImports, List.mem_filter, isBuiltinModule, builtinModules]
  simp

/-- A library that can be read was found, cut into tokens and read. -/
lemma readLibrary_eq_ok {resolve : Resolver} {name : String} {fs : List Function} :
    readLibrary resolve name = .ok fs ↔
      ∃ source, (resolve name).result = .ok source ∧ ∃ ts, scan source.text source.file = .ok ts ∧
        parseLibraryTokens ts = .ok fs := by
  simp only [readLibrary, except_bind_eq_ok, except_mapError_eq_ok]

/-- **What compiling hands over is consistent.**

**Proof sketch.** The parts of a compiled program are what the stages gave.  The imports are settled
by `leadingImports_of_parse`, the libraries by `loadLibraries_cases`, which gives no error here,
and the names of functions by `nodup_of_diagnose`. -/
theorem compile_consistent {s : Settings} {resolve : Resolver} {text file : String} {c : Compiled}
    (h : (compile s resolve text file).result = .ok c) :
    ∃ tokens, scan text file = .ok tokens ∧ Consistent resolve tokens c := by
  simp only [result_compile, except_bind_eq_ok, except_mapError_eq_ok, except_map_eq_ok] at h
  obtain ⟨tokens, hscan, loaded, hload, ⟨p, info⟩, hcheck, rfl⟩ := h
  obtain ⟨hparse, hdiagnose, rfl⟩ := readAndCheck_eq_ok hcheck
  have himports := leadingImports_of_parse hscan hparse
  have hloaded : Loaded resolve (leadingImports tokens) loaded := by
    rcases loadLibraries_cases s (leadingImports tokens) (Loaded.nil resolve) with
      ⟨loaded', hok, hloaded⟩ | ⟨e, -, herr⟩
    · obtain rfl : loaded = loaded' := Except.ok.inj (hload.symm.trans hok)
      exact hloaded
    · rw [hload] at herr
      cases herr
  refine ⟨tokens, hscan, ?_⟩
  exact {
    imports_eq := himports
    imports_known := rfl
    libraries_nodup := hloaded.nodup
    libraries_known := rfl
    mem_libraries_iff := fun n => by
      rw [Program.info, NameSet.mem_ofList, himports, hloaded.libraryNames_eq, NameSet.mem_ofList,
        mem_libraryImports_iff]
    functions_read := fun l hl => by
      obtain ⟨source, hsource, ts, hts, hfs⟩ := readLibrary_eq_ok.1 (hloaded.functions_eq l hl)
      exact ⟨source, ts, hsource, hts, hfs⟩
    functions_known := rfl
    functions_nodup := nodup_of_diagnose hdiagnose }

/-- A program that imports a library twice, and a module that comes with the language, is handed
over with one library. -/
theorem compile_consistent_sample :
    ∃ c, (compile {} sampleLibraries.resolver importingText "a.idyl").result = .ok c ∧
      ∃ tokens, scan importingText "a.idyl" = .ok tokens ∧
        Consistent sampleLibraries.resolver tokens c := by
  have hok : (compile {} sampleLibraries.resolver importingText "a.idyl").result.isOk = true := by
    decide +kernel
  obtain ⟨c, hc⟩ := exists_ok_of_isOk hok
  exact ⟨c, hc, compile_consistent hc⟩

end Idyl
