import Mathlib
import Idyl.Proofs.Compile.Results
import Idyl.Proofs.Typing.Accepts
import Idyl.Proofs.Typing.Analyzer

/-!
# Functions are checked apart

The analyzer goes over the functions of a program one after the other, and what it comes to know in
one function does not reach the next.  The errors inside a function depend on the function itself,
on the names of all functions, on the libraries and on the file: they are those that an analyzer
finds which knows nothing else and has found nothing yet.  Before them stand the errors about
functions that have the name of an earlier one.

So the order of functions with different names is the order of their errors and decides nothing
else, and what stands inside one function makes no difference to the errors inside the others.

## Main definitions

* `Idyl.Program.names` — the names of the functions of a program.
* `Idyl.repeated`, `Idyl.Program.redefinitions` — functions that have the name of an earlier one,
  and the errors about them.
* `Idyl.Function.errors` — the errors inside a function.
* `Idyl.Function.header` — all that the check asks of a function from outside.

## Main results

* `Idyl.checkNames_eq_map_repeated` — which functions are found to repeat a name.
* `Idyl.checkProgram_eq_of_headers` — programs whose functions differ only inside.
* `Idyl.functions_checked_apart` — the errors of a program, function by function.
-/

set_option autoImplicit false

namespace Idyl

/-! ## Repeated names -/

/-- The functions that have the name of an earlier one, each function being taken together with
those before it. -/
def repeated (fs : List Function) : List Function :=
  ((fs.zip fs.inits).filter fun x => x.1.name ∈ x.2.map (·.name)).map Prod.fst

/-- What the check finds about a function that has the name of an earlier one. -/
def Function.redefined (f : Function) : Finding := ⟨.functionRedefined f.name, f.span⟩

/-- The names that were seen are those of the functions before.

**Proof sketch.** Induction on the functions that are left; the one that was looked at last joins
those before. -/
lemma checkNames_eq_map_zip (fs : List Function) : ∀ (before : List Function) {seen : List String},
    (∀ n, n ∈ seen ↔ n ∈ before.map (·.name)) →
      checkNames seen fs =
        ((fs.zip (fs.inits.map (before ++ ·))).filter
          fun x => x.1.name ∈ x.2.map (·.name)).map fun x => x.1.redefined := by
  induction fs with
  | nil => intro before seen _; rfl
  | cons f fs ih =>
    intro before seen hseen
    have hnext : ∀ n, n ∈ f.name :: seen ↔ n ∈ (before ++ [f]).map (·.name) := by
      intro n
      rw [List.mem_cons, hseen, List.map_append, List.mem_append, or_comm]
      simp
    -- what stands before a later function begins with what stood before this one, and with it
    have hinits : (fs.inits.map (f :: ·)).map (before ++ ·) =
        fs.inits.map ((before ++ [f]) ++ ·) := by
      simp [Function.comp_def]
    rw [checkNames, ih (before ++ [f]) hnext, List.inits_cons, List.map_cons, hinits,
      List.append_nil, List.zip_cons_cons, List.filter_cons]
    by_cases hf : f.name ∈ before.map (·.name)
    · simp only [(hseen _).2 hf, hf, if_true, decide_true, List.map_cons]
      rfl
    · simp only [mt (hseen _).1 hf, hf, if_false, decide_false, Bool.false_eq_true]

/-- **The functions that are found to repeat a name** are those that have the name of an earlier
one, in their order. -/
lemma checkNames_eq_map_repeated (fs : List Function) :
    checkNames [] fs = (repeated fs).map Function.redefined := by
  rw [checkNames_eq_map_zip fs [] (by simp), repeated, List.map_map]
  simp [Function.comp_def]

/-- What the check asks of a function before it looks inside. -/
def Function.header (f : Function) : String × Span := (f.name, f.span)

/-- Repeated names are a matter of the headers. -/
lemma checkNames_eq_of_headers {fs fs' : List Function}
    (h : fs'.map Function.header = fs.map Function.header) (seen : List String) :
    checkNames seen fs' = checkNames seen fs := by
  induction fs generalizing fs' seen with
  | nil =>
    obtain rfl : fs' = [] := by simpa using h
    rfl
  | cons f fs ih =>
    obtain ⟨f', fs', rfl, hf, hfs⟩ := List.map_eq_cons_iff.1 h
    obtain ⟨hname, hspan⟩ := Prod.mk.inj hf
    rw [checkNames, checkNames, hname, hspan, ih hfs]

/-! ## The errors of a program -/

/-- The names of the functions of a program. -/
def Program.names (p : Program) : NameSet := .ofList (p.functions.map (·.name))

/-- The errors inside a function, given the names of all functions, the libraries and the file: what
an analyzer finds in it that knows nothing else and has found nothing yet. -/
def Function.errors (functions libraries : NameSet) (file : String) (f : Function) :
    List SemanticError :=
  (Analyzer.function ⟨file, ⟨.empty, functions, libraries⟩, []⟩ f).errors

/-- The errors inside a function are those that the check tells of it. -/
lemma Function.errors_eq (functions libraries : NameSet) (file : String) (f : Function) :
    f.errors functions libraries file =
      (checkFunction ⟨functions, libraries⟩ f).map (·.inFile file) := by
  rw [errors, Analyzer.function_eq]
  rfl

/-- **A function adds its errors** to those found before, whatever they are, and leaves the file and
the names as they are. -/
lemma Analyzer.function_eq_append (a : Analyzer) (f : Function) :
    a.function f =
      { a with errors := a.errors ++ f.errors a.info.functions a.info.libraries a.file } := by
  rw [function_eq, Function.errors_eq]
  rfl

/-- A function of the same name, with other parameters and another body. -/
def Function.refill (f : Function) (params : List Param) (body : Block) : Function :=
  { f with params := params, body := body }

/-- The errors about functions that have the name of an earlier one. -/
def Program.redefinitions (p : Program) : List SemanticError :=
  (repeated p.functions).map fun f => ⟨.functionRedefined f.name, p.file, f.span⟩

/-- Programs whose functions have the same names, in any order. -/
lemma names_eq_of_mem_iff {p p' : Program}
    (h : ∀ n, n ∈ p'.functions.map (·.name) ↔ n ∈ p.functions.map (·.name)) :
    p'.names = p.names := by
  refine NameSet.eq_of_mem_iff fun n => ?_
  rw [Program.names, Program.names, NameSet.mem_ofList, NameSet.mem_ofList, h n]

/-- Programs whose functions differ only inside. -/
lemma names_eq_of_headers {p p' : Program}
    (h : p'.functions.map Function.header = p.functions.map Function.header) :
    p'.names = p.names := by
  have hnames := congrArg (List.map Prod.fst) h
  rw [List.map_map, List.map_map] at hnames
  exact congrArg NameSet.ofList hnames

/-- The errors about names, and then those inside the functions. -/
lemma checkProgram_eq_append (p : Program) (libraries : NameSet) :
    checkProgram p libraries =
      (checkNames [] p.functions).map (·.inFile p.file) ++
        p.allFunctions.flatMap (Function.errors p.names libraries p.file) := by
  have herrors : Function.errors p.names libraries p.file =
      fun f => (checkFunction (p.info libraries).globals f).map (·.inFile p.file) :=
    funext fun f => f.errors_eq p.names libraries p.file
  rw [checkProgram, findings, List.map_append, List.map_flatMap, herrors]

/-- The errors about repeated names are those that the check tells. -/
lemma redefinitions_eq (p : Program) :
    p.redefinitions = (checkNames [] p.functions).map (·.inFile p.file) := by
  rw [checkNames_eq_map_repeated, List.map_map]
  rfl

/-- Functions with different names repeat none. -/
lemma redefinitions_eq_nil {p : Program} (h : (p.functions.map (·.name)).Nodup) :
    p.redefinitions = [] := by
  rw [redefinitions_eq, List.map_eq_nil_iff, Typing.checkNames_eq_nil_iff]
  exact ⟨h, by simp⟩

/-- **Programs whose functions differ only inside** have the same errors about names, and what is
inside is checked with the same names known. -/
lemma checkProgram_eq_of_headers {p p' : Program} (libraries : NameSet)
    (h : p'.functions.map Function.header = p.functions.map Function.header)
    (hfile : p'.file = p.file) :
    checkProgram p' libraries =
      p.redefinitions ++ p'.allFunctions.flatMap (Function.errors p.names libraries p.file) := by
  rw [checkProgram_eq_append, redefinitions_eq, checkNames_eq_of_headers h,
    names_eq_of_headers h, hfile]

/-- Functions with different names may stand in any order. -/
lemma checkProgram_perm {p : Program} (libraries : NameSet)
    (hnodup : (p.functions.map (·.name)).Nodup) {fs : List Function} (h : fs.Perm p.functions) :
    checkProgram { p with functions := fs } libraries =
      (fs ++ [p.main]).flatMap (Function.errors p.names libraries p.file) := by
  have hnames : (fs.map (·.name)).Perm (p.functions.map (·.name)) := h.map _
  have hnone : ({ p with functions := fs } : Program).redefinitions = [] :=
    redefinitions_eq_nil (hnames.nodup_iff.2 hnodup)
  have hknown : ({ p with functions := fs } : Program).names = p.names :=
    names_eq_of_mem_iff fun _ => hnames.mem_iff
  rw [checkProgram_eq_append, ← redefinitions_eq, hnone, hknown]
  rfl

/-- **Functions are checked apart.**  An analyzer that goes over a function adds the errors inside
it to those found before and changes nothing else, whatever it has found before.  These errors are
determined by the function, the names of all functions, the libraries and the file.  So the errors
that are collected in a program, which are those of the check, are the errors about repeated names,
followed by the errors inside each function, `main` last; and

* if the functions of the program have different names, then in any other order of the functions the
  errors inside each of them stay the same and come in that order, and the program is accepted or
  not as before;
* other parameters and another body of one function, or of `main`, change the errors inside this
  function only.

**Proof sketch.** Every phrase adds the errors that the check tells of it
(`Idyl.Analyzer.function_eq`, `Idyl.Analyzer.program_eq`).  The names of functions are the same in
all these programs (`Idyl.checkProgram_perm`, `Idyl.checkProgram_eq_of_headers`), and through them
alone a function depends on the others. -/
theorem functions_checked_apart (p : Program) (libraries : NameSet) :
    (∀ (a : Analyzer) (f : Function), a.function f =
      { a with errors := a.errors ++ f.errors a.info.functions a.info.libraries a.file }) ∧
    (∀ q : Program, Analyzer.collect q libraries = checkProgram q libraries) ∧
    Analyzer.collect p libraries =
      p.redefinitions ++ p.allFunctions.flatMap (Function.errors p.names libraries p.file) ∧
    ((p.functions.map (·.name)).Nodup → ∀ fs : List Function, fs.Perm p.functions →
      Analyzer.collect { p with functions := fs } libraries =
        (fs ++ [p.main]).flatMap (Function.errors p.names libraries p.file) ∧
      (Analyzer.collect { p with functions := fs } libraries = [] ↔
        Analyzer.collect p libraries = [])) ∧
    (∀ before f after params body, p.functions = before ++ f :: after →
      Analyzer.collect { p with functions := before ++ f.refill params body :: after } libraries =
        p.redefinitions ++ before.flatMap (Function.errors p.names libraries p.file) ++
          (f.refill params body).errors p.names libraries p.file ++
          (after ++ [p.main]).flatMap (Function.errors p.names libraries p.file)) ∧
    ∀ params body,
      Analyzer.collect { p with main := p.main.refill params body } libraries =
        p.redefinitions ++ p.functions.flatMap (Function.errors p.names libraries p.file) ++
          (p.main.refill params body).errors p.names libraries p.file := by
  refine ⟨Analyzer.function_eq_append, fun q => Analyzer.collect_eq q libraries, ?_⟩
  simp only [Analyzer.collect_eq]
  refine ⟨checkProgram_eq_of_headers libraries rfl rfl, fun hnodup fs hperm => ?_, ?_, ?_⟩
  · have hsame : checkProgram p libraries =
        (p.functions ++ [p.main]).flatMap (Function.errors p.names libraries p.file) :=
      checkProgram_perm libraries hnodup (.refl _)
    rw [checkProgram_perm libraries hnodup hperm, hsame]
    refine ⟨rfl, ?_⟩
    rw [List.flatMap_eq_nil_iff, List.flatMap_eq_nil_iff]
    exact forall_congr' fun f => imp_congr_left (hperm.append_right _).mem_iff
  · intro before f after params body hsplit
    let p' : Program := { p with functions := before ++ f.refill params body :: after }
    have hheaders : p'.functions.map Function.header = p.functions.map Function.header := by
      rw [hsplit, List.map_append, List.map_append]
      rfl
    have hall : p'.allFunctions = before ++ f.refill params body :: (after ++ [p.main]) :=
      List.append_assoc ..
    rw [checkProgram_eq_of_headers libraries hheaders rfl, hall, List.flatMap_append,
      List.flatMap_cons]
    simp only [List.append_assoc]
  · intro params body
    let p' : Program := { p with main := p.main.refill params body }
    have hheaders : p'.functions.map Function.header = p.functions.map Function.header := rfl
    have hall : p'.allFunctions = p.functions ++ [p.main.refill params body] := rfl
    rw [checkProgram_eq_of_headers libraries hheaders rfl, hall, List.flatMap_append,
      List.flatMap_singleton, List.append_assoc]

/-- A function that uses a variable which is declared in another function. -/
def borrowing : Function where
  name := "f"
  returns := .int
  params := []
  body := ⟨[.return_ (some (.var "n" ⟨30, 31, 1, 31⟩)) ⟨23, 32, 1, 24⟩], ⟨21, 34, 1, 22⟩⟩
  span := ⟨0, 34, 1, 1⟩

/-- A function that declares this variable, and calls a function that does not exist. -/
def lending : Function where
  name := "g"
  returns := .void
  params := [⟨.int, "n", ⟨51, 56, 2, 17⟩⟩]
  body := ⟨[.eval (.call (.var "h" ⟨60, 61, 2, 26⟩) [] ⟨60, 63, 2, 26⟩) ⟨60, 64, 2, 26⟩],
    ⟨58, 66, 2, 24⟩⟩
  span := ⟨35, 66, 2, 1⟩

/-- A program with both. -/
def sharing : Program where
  imports := []
  functions := [borrowing, lending]
  main := { name := "main", returns := .void, params := [], body := ⟨[], {}⟩, span := {} }
  file := "a.idyl"

/-- With the functions the other way round, the variable is as unknown as before, and the errors
are the other way round.  With a parameter of its name it is known, and the error in the other
function is left. -/
theorem functions_checked_apart_sharing :
    ((sharing.functions.map (·.name)).Nodup ∧ [lending, borrowing].Perm sharing.functions ∧
      Analyzer.collect { sharing with functions := [lending, borrowing] } .empty =
        [⟨.unknownFunction "h", "a.idyl", ⟨60, 63, 2, 26⟩⟩,
          ⟨.notDeclared "n", "a.idyl", ⟨30, 31, 1, 31⟩⟩]) ∧
    (sharing.functions = [] ++ borrowing :: [lending] ∧
      Analyzer.collect
          { sharing with functions := [borrowing.refill lending.params borrowing.body, lending] }
          .empty =
        [⟨.unknownFunction "h", "a.idyl", ⟨60, 63, 2, 26⟩⟩]) := by
  obtain ⟨-, -, -, hperms, hrefills, -⟩ := functions_checked_apart sharing .empty
  constructor
  · have hnodup : (sharing.functions.map (·.name)).Nodup := by decide
    have hperm : [lending, borrowing].Perm sharing.functions := .swap ..
    refine ⟨hnodup, hperm, (hperms hnodup _ hperm).1.trans ?_⟩
    decide
  · have hsplit : sharing.functions = [] ++ borrowing :: [lending] := rfl
    refine ⟨hsplit, (hrefills [] borrowing [lending] lending.params borrowing.body hsplit).trans ?_⟩
    decide

end Idyl
