import Mathlib
import Idyl.Proofs.Compile.Results
import Idyl.Proofs.Pairing.Placed
import Idyl.Proofs.Printing.Reparse
import Idyl.Proofs.Token.LineFeeds

/-!
# Where errors are found

Compiling reads several texts: that of the program, and those of the libraries that it imports.  An
error is found in one of them, unless a library cannot be had at all, which is for the resolver to
report.  Whatever is found in a text lies at a place of it, and what resolvers report lies at none.

## Main definitions

* `Idyl.Origin` — the texts in which errors are found.
* `Idyl.FoundIn` — which error is found in which text.
* `Idyl.Unresolved` — what is reported of a library that cannot be had.
* `Idyl.Resolver.Placeless` — resolvers whose reports lie at no place.

## Main results

* `Idyl.compile_error_cases` — every error is found in a text, or a library cannot be had.
* `Idyl.FoundIn.liesIn` — an error lies in the file that it was found in.
* `Idyl.MemoryLibraries.resolver_placeless`, `Idyl.LibraryDir.resolver_placeless` — the resolvers
  there are.
* `Idyl.errors_lie_in_text` — every error that is reported lies at a place of a text.
* `Idyl.error_line_overflow` — an error on a line that has no number.
-/

set_option autoImplicit false

namespace Idyl

/-- An error is not changed by what happens to values. -/
lemma except_map_eq_error {ε α β : Type} {x : Except ε α} {f : α → β} {e : ε} :
    x.map f = .error e ↔ x = .error e := by
  cases x <;> simp [Except.map]

/-- An error comes from an error. -/
lemma except_mapError_eq_error {ε ε' α : Type} {x : Except ε α} {f : ε → ε'} {e : ε'} :
    x.mapError f = .error e ↔ ∃ e', x = .error e' ∧ f e' = e := by
  cases x <;> simp [Except.mapError]

/-! ## Texts -/

/-- A text in which errors are found: that of the program, or that of a library. -/
inductive Origin where
  | program
  | library (source : LibrarySource)

/-- The file of a library. -/
def LibrarySource.sourceFile (source : LibrarySource) : SourceFile := ⟨source.file, source.text⟩

/-- The file that holds a text in which errors are found, if the program is `text` in `file`. -/
def Origin.sourceFile (text file : String) : Origin → SourceFile
  | program => ⟨file, text⟩
  | library source => source.sourceFile

/-- The functions of a library whose text was found. -/
def readSource (source : LibrarySource) : Except CompileError (List Function) := do
  let tokens ← (scan source.text source.file).mapError LexError.report
  (parseLibraryTokens tokens).mapError SyntaxError.report

/-- A library that is found is read from its text. -/
lemma readLibrary_of_found {resolve : Resolver} {name : String} {source : LibrarySource}
    (h : (resolve name).result = .ok source) : readLibrary resolve name = readSource source := by
  rw [readLibrary, h]
  rfl

/-- Which error of compiling `text` in `file` is found in which text.  The tokens of the program
come first; then the libraries that it imports, in order, each of which is read only if all before
it can be; and then the program again, which is read and checked if all its libraries can be
read. -/
inductive FoundIn (resolve : Resolver) (text file : String) (e : CompileError) : Origin → Prop
  | scanning {f : LexError} (hscan : scan text file = .error f) (he : f.report = e) :
      FoundIn resolve text file e .program
  | library {tokens : List Token} {before after : List String} {name : String}
      {source : LibrarySource} (hscan : scan text file = .ok tokens)
      (himports : libraryImports (leadingImports tokens) = before ++ name :: after)
      (hbefore : ∀ n ∈ before, ∃ fs, readLibrary resolve n = .ok fs)
      (hsource : (resolve name).result = .ok source) (he : readSource source = .error e) :
      FoundIn resolve text file e (.library source)
  | checking {tokens : List Token} (hscan : scan text file = .ok tokens)
      (himports : ∀ n ∈ libraryImports (leadingImports tokens),
        ∃ fs, readLibrary resolve n = .ok fs)
      (he : readAndCheck tokens (.ofList (libraryImports (leadingImports tokens))) = .error e) :
      FoundIn resolve text file e .program

/-- A library that a text imports cannot be had, and `e` is what the resolver reports of it. -/
def Unresolved (resolve : Resolver) (text file : String) (e : CompileError) : Prop :=
  ∃ tokens, scan text file = .ok tokens ∧
    ∃ n ∈ libraryImports (leadingImports tokens), (resolve n).result = .error e

/-- What a resolver reports of libraries that cannot be had lies in no file. -/
def Resolver.Placeless (resolve : Resolver) : Prop :=
  ∀ name e, (resolve name).result = .error e → e.file? = none ∧ e.span? = none

/-- A library that is not in memory is reported without a place. -/
lemma MemoryLibraries.resolver_placeless (m : MemoryLibraries) : Resolver.Placeless m.resolver := by
  intro name e h
  unfold resolver at h
  dsimp only at h
  split at h
  · cases h
  · obtain rfl := Except.error.inj h
    exact ⟨rfl, rfl⟩

/-- A library that is not in the directory, or cannot be read there, is reported without a place. -/
lemma LibraryDir.resolver_placeless (d : LibraryDir) (files : FileView) :
    Resolver.Placeless (d.resolver files) := by
  intro name e h
  unfold resolver at h
  dsimp only at h
  split at h
  · rw [Run.result_bind, Run.result_debug, ok_bind] at h
    split at h
    · cases h
    · obtain rfl := Except.error.inj h
      exact ⟨rfl, rfl⟩
  · obtain rfl := Except.error.inj h
    exact ⟨rfl, rfl⟩

variable {s : Settings} {resolve : Resolver} {text file : String} {e : CompileError} {o : Origin}

/-- **Every error of compiling** is found in a text, or is the report of a library that cannot be
had.

**Proof sketch.** The stages are gone through in order.  By `loadLibraries_cases` either all
libraries can be read, and the error is found by reading and checking the program, or it is that of
the first library that cannot; whether it is found there depends on whether the library was. -/
lemma compile_error_cases (h : (compile s resolve text file).result = .error e) :
    Unresolved resolve text file e ∨ ∃ o, FoundIn resolve text file e o := by
  rw [result_compile] at h
  cases hscan : scan text file with
  | error f =>
    rw [hscan] at h
    exact .inr ⟨_, .scanning hscan (Except.error.inj h)⟩
  | ok tokens =>
    rw [hscan] at h
    rcases loadLibraries_cases s (leadingImports tokens) (Loaded.nil resolve) with
      ⟨loaded, hok, hloaded⟩ | ⟨e', ⟨before, name, after, himports, hbefore, he⟩, herr⟩
    · simp only [Except.mapError, ok_bind, hok, except_map_eq_error, hloaded.libraryNames_eq,
        List.nil_append] at h
      exact .inr ⟨_, .checking hscan (fun n hn => hloaded.readable hn) h⟩
    · obtain rfl : e' = e := by
        simp only [Except.mapError, ok_bind, herr, error_bind] at h
        exact Except.error.inj h
      cases hsource : (resolve name).result with
      | error e'' =>
        obtain rfl : e'' = e' := by
          rw [readLibrary, hsource] at he
          exact Except.error.inj he
        exact .inl ⟨tokens, hscan, name, by simp [himports], hsource⟩
      | ok source =>
        rw [readLibrary_of_found hsource] at he
        exact .inr ⟨_, .library hscan himports hbefore hsource he⟩

/-! ## Places -/

/-- An error in the text of a library lies in its file. -/
lemma readSource_error_liesIn {source : LibrarySource} (h : readSource source = .error e) :
    e.LiesIn source.sourceFile := by
  rw [readSource] at h
  cases hscan : scan source.text source.file with
  | error f =>
    rw [hscan] at h
    obtain rfl : f.report = e := Except.error.inj h
    exact scan_error_liesIn hscan
  | ok tokens =>
    rw [hscan] at h
    obtain ⟨f, hparse, rfl⟩ := except_mapError_eq_error.1 h
    exact parseLibraryTokens_error_liesIn hscan hparse

/-- An error of reading and checking a program lies in its file. -/
lemma readAndCheck_error_liesIn {tokens : List Token} {libraries : NameSet}
    (hscan : scan text file = .ok tokens) (h : readAndCheck tokens libraries = .error e) :
    e.LiesIn ⟨file, text⟩ := by
  rw [readAndCheck] at h
  cases hparse : parseTokens tokens with
  | error f =>
    rw [hparse] at h
    obtain rfl : f.report = e := Except.error.inj h
    exact parseTokens_error_liesIn hscan hparse
  | ok p =>
    rw [hparse] at h
    simp only [Except.mapError, ok_bind] at h
    apply diagnose_liesIn hscan hparse libraries
    cases herrors : (diagnose p libraries).errors with
    | nil =>
      rw [Diagnostics.toExcept, herrors] at h
      cases h
    | cons e' es =>
      rw [Diagnostics.toExcept, herrors] at h
      obtain rfl : e' = e := Except.error.inj h
      exact List.mem_cons_self

/-- **An error lies in the file that it was found in.** -/
lemma FoundIn.liesIn (h : FoundIn resolve text file e o) : e.LiesIn (o.sourceFile text file) := by
  cases h with
  | scanning hscan he => exact he ▸ scan_error_liesIn hscan
  | library _ _ _ _ he => exact readSource_error_liesIn he
  | checking hscan _ he => exact readAndCheck_error_liesIn hscan he

/-- An error that lies at a place was found in a text. -/
lemma exists_foundIn (hresolve : resolve.Placeless)
    (h : (compile s resolve text file).result = .error e) {span : Span}
    (hspan : e.span? = some span) : ∃ o, FoundIn resolve text file e o := by
  rcases compile_error_cases h with ⟨tokens, -, n, -, hn⟩ | hfound
  · rw [(hresolve n e hn).2] at hspan
    cases hspan
  · exact hfound

/-- **Every error that is reported lies at a place of a text.** An error of compiling is found in
the text of the program or of a library, or it is the report of a library that cannot be had, which
resolvers give without a place.  Whatever text it was found in, it carries the name of its file, and
a span that starts and stops at edges of characters of the text, with line and column as they are
counted in it, as far as numbers of 32 bits go.  The same holds of every error that is found in a
program that was read from a text, whatever libraries there are.

**Proof sketch.** By `compile_error_cases`, `FoundIn.liesIn` and `diagnose_liesIn`, all of which
rest on the places of tokens. -/
theorem errors_lie_in_text (s : Settings) (resolve : Resolver) (text file : String) :
    (∀ e, (compile s resolve text file).result = .error e →
      (Unresolved resolve text file e ∨ ∃ o, FoundIn resolve text file e o) ∧
      (resolve.Placeless → ∀ span, e.span? = some span → ∃ o, FoundIn resolve text file e o) ∧
        ∀ o, FoundIn resolve text file e o → e.LiesIn (o.sourceFile text file)) ∧
    ∀ p, parseProgram text file = .ok p → ∀ libraries,
      ∀ e ∈ (diagnose p libraries).errors, e.LiesIn ⟨file, text⟩ := by
  refine ⟨fun e he => ⟨compile_error_cases he, fun hresolve span => exists_foundIn hresolve he,
    fun o ho => ho.liesIn⟩, fun p hp libraries => ?_⟩
  cases hscan : scan text file with
  | error f =>
    rw [parseProgram, Session.ofText, hscan] at hp
    cases hp
  | ok tokens =>
    rw [parseProgram_of_scan hscan, except_mapError_eq_ok] at hp
    exact diagnose_liesIn hscan hp libraries

/-- A library with a stray character of three bytes behind one of two bytes in a comment. -/
def accentedLibraries : MemoryLibraries :=
  ⟨[("accents", "// é\nint function f() \x7b return 日; \x7d")]⟩

/-- A program that imports the library. -/
def accentedImport : String := "use accents; main("

/-- The stray character of the library, as it is reported. -/
def accentedError : CompileError :=
  .inText .lexing "unexpected character '日'" "accents.idyl" ⟨32, 35, 2, 27⟩

/-- A program with two errors behind characters of two and three bytes. -/
def accentedText : String := "// é\nmain() \x7b string s = \"日本\"; y = s;\n  z = s; \x7d"

/-- An error in a library, and two errors in a program, behind characters of several bytes. -/
theorem errors_lie_in_text_sample :
    ((compile {} accentedLibraries.resolver accentedImport "a.idyl").result = .error accentedError ∧
      ∃ o, FoundIn accentedLibraries.resolver accentedImport "a.idyl" accentedError o ∧
        accentedError.LiesIn (o.sourceFile accentedImport "a.idyl")) ∧
    ∃ p, parseProgram accentedText "a.idyl" = .ok p ∧
      (diagnose p (.ofList [])).errors.map CompileError.span? =
        [some ⟨36, 41, 2, 27⟩, some ⟨45, 50, 3, 3⟩] ∧
      ∀ e ∈ (diagnose p (.ofList [])).errors, e.LiesIn ⟨"a.idyl", accentedText⟩ := by
  have herror : (compile {} accentedLibraries.resolver accentedImport "a.idyl").result.map
      (fun _ => ()) = .error accentedError := by decide +kernel
  rw [except_map_eq_error] at herror
  have hspans : (parseProgram accentedText "a.idyl").map
      (fun p => (diagnose p (.ofList [])).errors.map CompileError.span?) =
        .ok [some ⟨36, 41, 2, 27⟩, some ⟨45, 50, 3, 3⟩] := by decide +kernel
  obtain ⟨p, hp, hspans⟩ := except_map_eq_ok.1 hspans
  obtain ⟨hcompile, hcheck⟩ :=
    errors_lie_in_text {} accentedLibraries.resolver accentedImport "a.idyl"
  obtain ⟨-, hfound, hlies⟩ := hcompile _ herror
  obtain ⟨o, ho⟩ := hfound accentedLibraries.resolver_placeless _ rfl
  exact ⟨⟨herror, o, ho, hlies o ho⟩, p, hp, hspans,
    (errors_lie_in_text {} accentedLibraries.resolver _ _).2 p hp _⟩

/-- A file of line feeds is no program, and this is found at its end. -/
lemma compile_lineFeeds (s : Settings) (resolve : Resolver) (n : Nat) (file : String) :
    (compile s resolve (lineFeeds n) file).result =
      .error (SyntaxError.report ⟨.expected "'main' function" .endOfFile, file,
        ⟨n, n, UInt32.ofNat (n + 1), 1⟩⟩) := by
  rw [result_compile, scan_lineFeeds]
  rfl

/-- The line on which this is found has no number, if there are as many lines as 32 bits give
numbers. -/
lemma exists_error_lineFeeds {n : Nat} (hn : n + 1 = 2 ^ 32) (s : Settings) (resolve : Resolver)
    (file : String) :
    ∃ e span, (compile s resolve (lineFeeds n) file).result = .error e ∧ e.span? = some span ∧
      (lineFeeds n).utf8ByteSize < 2 ^ 32 ∧
      lineFeedsBefore (lineFeeds n) span.start + 1 = 2 ^ 32 ∧ span.line = 0 := by
  refine ⟨_, ⟨n, n, UInt32.ofNat (n + 1), 1⟩, compile_lineFeeds s resolve n file, rfl, ?_, ?_, ?_⟩
  · rw [utf8ByteSize_lineFeeds]
    omega
  · rw [lineFeedsBefore_lineFeeds, hn]
  · rw [hn]
    rfl

/-- A file of `2 ^ 32 - 1` line feeds is no program, and the line on which this is found has no
number: it is reported as line zero. -/
theorem error_line_overflow :
    ∃ e span, (compile {} (MemoryLibraries.resolver {}) (lineFeeds (2 ^ 32 - 1)) "a.idyl").result =
        .error e ∧ e.span? = some span ∧
      (lineFeeds (2 ^ 32 - 1)).utf8ByteSize < 2 ^ 32 ∧
      lineFeedsBefore (lineFeeds (2 ^ 32 - 1)) span.start + 1 = 2 ^ 32 ∧ span.line = 0 :=
  exists_error_lineFeeds (by decide) {} _ "a.idyl"

end Idyl
