import Mathlib
import Idyl.Grammar.Session
import Idyl.Proofs.Typing.Accepts

/-!
# Names declared in a function

All blocks of a function share one scope, and a name in it cannot be declared again.  A
declaration puts its name there only if the type of its first value can be told.  So the names
that become known are different from each other, but a declaration whose first value has no type
leaves no trace: its name can be declared once more without a finding.

## Main definitions

* `Idyl.Stmt.declared`, `Idyl.Function.declared` — the names declared in a phrase.
* `Idyl.Declaration`, `Idyl.declarations`, `Idyl.Function.declarations` — the declarations that the
  check passes, with whether the name becomes known.
* `Idyl.Orderly` — what is kept while accepted declarations are passed.

## Main results

* `Idyl.checkFunction_orderly` — the declarations of an accepted function are orderly.
* `Idyl.declared_nodup_iff` — when the names declared in an accepted function are different.
* `Idyl.declared_twice` — an accepted program that declares a name twice.
-/

set_option autoImplicit false

namespace Idyl

open Typing

/-! ## Declared names -/

mutual

/-- The names declared in a statement, at any depth and in the order of the text. -/
def Stmt.declared : Stmt → List String
  | .declare _ name _ _ => [name]
  | .eval .. => []
  | .block body _ => Stmt.declaredAll body
  | .ifThen _ thenBranch _ => thenBranch.declared
  | .ifElse _ thenBranch elseBranch _ => thenBranch.declared ++ elseBranch.declared
  | .while_ _ body _ => body.declared
  | .return_ .. => []

/-- The names declared in statements. -/
def Stmt.declaredAll : List Stmt → List String
  | [] => []
  | s :: ss => s.declared ++ Stmt.declaredAll ss

end

/-- The names declared in a function, those of its parameters first. -/
def Function.declared (f : Function) : List String :=
  f.params.map (·.name) ++ Stmt.declaredAll f.body.body

/-- A declaration as the check passes it: its name, and whether it has a type to bind the name
with. -/
structure Declaration where
  name : String
  typed : Bool
deriving DecidableEq

mutual

/-- The declarations that the check of a statement passes. -/
def declarations (g : Globals) (scope : Scope) : Stmt → List Declaration
  | .declare _ name init _ => [⟨name, (checkExpr g scope init).type.isSome⟩]
  | .eval .. => []
  | .block body _ => declarationsAll g scope body
  | .ifThen _ thenBranch _ => declarations g scope thenBranch
  | .ifElse _ thenBranch elseBranch _ =>
    declarations g scope thenBranch ++
      declarations g (checkStmt g scope thenBranch).scope elseBranch
  | .while_ _ body _ => declarations g scope body
  | .return_ .. => []

/-- The declarations that the check of statements passes. -/
def declarationsAll (g : Globals) (scope : Scope) : List Stmt → List Declaration
  | [] => []
  | s :: ss => declarations g scope s ++ declarationsAll g (checkStmt g scope s).scope ss

end

/-- The declarations that the check of a function passes.  A parameter always has a type. -/
def Function.declarations (g : Globals) (f : Function) : List Declaration :=
  f.params.map (fun p => ⟨p.name, true⟩) ++
    declarationsAll g (checkParams {} f.params).scope f.body.body

mutual

/-- The declarations that are passed are those of the text. -/
lemma map_name_declarations (g : Globals) : ∀ (scope : Scope) (s : Stmt),
    (declarations g scope s).map (·.name) = s.declared
  | _, .declare .. | _, .eval .. | _, .return_ .. => by simp [declarations, Stmt.declared]
  | scope, .block body _ => by
    rw [declarations, Stmt.declared, map_name_declarationsAll]
  | scope, .ifThen _ thenBranch _ => by
    rw [declarations, Stmt.declared, map_name_declarations]
  | scope, .ifElse _ thenBranch elseBranch _ => by
    rw [declarations, Stmt.declared, List.map_append, map_name_declarations,
      map_name_declarations]
  | scope, .while_ _ body _ => by
    rw [declarations, Stmt.declared, map_name_declarations]

/-- So are the declarations of statements. -/
lemma map_name_declarationsAll (g : Globals) : ∀ (scope : Scope) (ss : List Stmt),
    (declarationsAll g scope ss).map (·.name) = Stmt.declaredAll ss
  | _, [] => rfl
  | scope, s :: ss => by
    rw [declarationsAll, Stmt.declaredAll, List.map_append, map_name_declarations,
      map_name_declarationsAll]

end

/-- The check passes each declaration of a function once. -/
lemma Function.map_name_declarations (g : Globals) (f : Function) :
    (f.declarations g).map (·.name) = f.declared := by
  rw [declarations, declared, List.map_append, map_name_declarationsAll, List.map_map]
  rfl

/-! ## Passing declarations -/

/-- What is kept while declarations are passed without a finding: known names stay known, names
that are declared are not known before, those declared with a type are known afterwards, and none
of these is declared again. -/
structure Orderly (before : Scope) (ds : List Declaration) (after : Scope) : Prop where
  kept : ∀ name, before.contains name = true → after.contains name = true
  fresh : ∀ d ∈ ds, before.contains d.name = false
  known : ∀ d ∈ ds, d.typed = true → after.contains d.name = true
  once : ds.Pairwise fun d e => d.typed = true → d.name ≠ e.name

namespace Orderly

/-- Passing nothing is orderly. -/
lemma nil (scope : Scope) : Orderly scope [] scope :=
  ⟨fun _ h => h, by simp, by simp, .nil⟩

/-- A name that becomes known in the first part is not fresh in the second. -/
lemma append {before between after : Scope} {ds es : List Declaration}
    (h₁ : Orderly before ds between) (h₂ : Orderly between es after) :
    Orderly before (ds ++ es) after where
  kept name h := h₂.kept name (h₁.kept name h)
  fresh d hd := by
    rcases List.mem_append.1 hd with hd | hd
    · exact h₁.fresh d hd
    · have hbetween := h₂.fresh d hd
      by_contra hbefore
      rw [h₁.kept d.name (by simpa using hbefore)] at hbetween
      contradiction
  known d hd ht := by
    rcases List.mem_append.1 hd with hd | hd
    · exact h₂.kept d.name (h₁.known d hd ht)
    · exact h₂.known d hd ht
  once := by
    refine List.pairwise_append.2 ⟨h₁.once, h₂.once, fun d hd e he ht heq => ?_⟩
    have hknown := h₁.known d hd ht
    rw [heq, h₂.fresh e he] at hknown
    contradiction

end Orderly

/-- The names that are known after a variable was added. -/
lemma contains_bind (scope : Scope) (b : Binding) (name : String) :
    (scope.bind b).contains name = (decide (b.name = name) || scope.contains name) := by
  rw [Scope.contains, Scope.lookup_bind]
  by_cases h : b.name = name <;> simp [h, Scope.contains]

/-- A new name that is bound is passed with a type. -/
lemma Orderly.bind {scope : Scope} {b : Binding} (h : scope.contains b.name = false) :
    Orderly scope [⟨b.name, true⟩] (scope.bind b) where
  kept name hname := by simp [contains_bind, hname]
  fresh := by simpa using h
  known := by simp [contains_bind]
  once := List.pairwise_singleton _ _

/-- A declaration that is accepted without a type leaves the scope as it is. -/
lemma Orderly.untyped {scope : Scope} {name : String} (h : scope.contains name = false) :
    Orderly scope [⟨name, false⟩] scope where
  kept _ hname := hname
  fresh := by simpa using h
  known := by simp
  once := List.pairwise_singleton _ _

/-- An accepted declaration is orderly. -/
lemma checkDeclare_orderly {g : Globals} {scope : Scope} {type : Ty} {name : String}
    {init : Expr} {s : Span} (h : (checkDeclare g scope type name init s).findings = []) :
    Orderly scope [⟨name, (checkExpr g scope init).type.isSome⟩]
      (checkDeclare g scope type name init s).scope := by
  obtain ⟨-, hfresh, -, ⟨hv, hscope⟩ | ⟨v, hv, -, hscope⟩⟩ := checkDeclare_cases h
  · rw [hv, hscope]
    exact .untyped hfresh
  · rw [hv, hscope]
    exact .bind (b := ⟨name, type⟩) hfresh

mutual

/-- **Accepted statements are orderly.**

**Proof sketch.** By recursion on the statement; only declarations change the scope, and the parts
of a statement are passed one after the other. -/
lemma checkStmt_orderly {g : Globals} : ∀ (scope : Scope) (s : Stmt),
    (checkStmt g scope s).findings = [] →
      Orderly scope (declarations g scope s) (checkStmt g scope s).scope
  | scope, .declare .., h => by
    rw [checkStmt] at h ⊢
    exact checkDeclare_orderly h
  | scope, .eval .., _ | scope, .return_ none _, _ | scope, .return_ (some _) _, _ => by
    rw [checkStmt]
    exact .nil scope
  | scope, .block body _, h => by
    rw [checkStmt] at h ⊢
    exact checkStmts_orderly scope body h
  | scope, .ifThen _ thenBranch _, h => by
    rw [checkStmt] at h ⊢
    exact checkStmt_orderly scope thenBranch (List.append_eq_nil_iff.1 h).2
  | scope, .ifElse _ thenBranch elseBranch _, h => by
    rw [checkStmt] at h ⊢
    obtain ⟨hct, he⟩ := List.append_eq_nil_iff.1 h
    exact (checkStmt_orderly scope thenBranch (List.append_eq_nil_iff.1 hct).2).append
      (checkStmt_orderly _ elseBranch he)
  | scope, .while_ _ body _, h => by
    rw [checkStmt] at h ⊢
    exact checkStmt_orderly scope body (List.append_eq_nil_iff.1 h).2

/-- **Accepted statements are orderly**, one after the other. -/
lemma checkStmts_orderly {g : Globals} : ∀ (scope : Scope) (ss : List Stmt),
    (checkStmts g scope ss).findings = [] →
      Orderly scope (declarationsAll g scope ss) (checkStmts g scope ss).scope
  | scope, [], _ => .nil scope
  | scope, s :: ss, h => by
    rw [checkStmts] at h ⊢
    obtain ⟨hs, hss⟩ := List.append_eq_nil_iff.1 h
    exact (checkStmt_orderly scope s hs).append (checkStmts_orderly _ ss hss)

end

/-- Accepted parameters are orderly. -/
lemma checkParams_orderly : ∀ (scope : Scope) (ps : List Param),
    (checkParams scope ps).findings = [] →
      Orderly scope (ps.map fun p => ⟨p.name, true⟩) (checkParams scope ps).scope
  | scope, [], _ => .nil scope
  | scope, p :: ps, h => by
    rw [checkParams] at h ⊢
    cases hp : scope.lookup p.name with
    | some old => simp [Scope.define, hp] at h
    | none =>
      simp only [Scope.define, hp] at h ⊢
      have hfresh : scope.contains p.name = false := by simp [Scope.contains, hp]
      exact (Orderly.bind (b := ⟨p.name, p.type⟩) hfresh).append (checkParams_orderly _ ps h)

/-- The declarations of an accepted function are orderly, its parameters included. -/
lemma checkFunction_orderly {g : Globals} {f : Function} (h : checkFunction g f = []) :
    ∃ after, Orderly {} (f.declarations g) after := by
  obtain ⟨hparams, hbody⟩ := List.append_eq_nil_iff.1 h
  exact ⟨_, (checkParams_orderly {} f.params hparams).append (checkStmts_orderly _ _ hbody)⟩

/-! ## Names declared once -/

/-- **When the names declared in an accepted function are different.**  The parameters and the
variables whose first value has a type always have different names.  All names declared in the
function are different exactly if no declaration without a type is followed by another one of the
same name.

**Proof sketch.** The declarations of the function are orderly, so one with a type is never
followed by another of its name; what is left are those without a type. -/
theorem declared_nodup_iff {p : Program} {libraries : NameSet}
    (h : checkProgram p libraries = []) {f : Function} (hf : f ∈ p.allFunctions) :
    (((f.declarations (p.info libraries).globals).filter (·.typed)).map (·.name)).Nodup ∧
    (f.declared.Nodup ↔ (f.declarations (p.info libraries).globals).Pairwise
      fun d e => d.typed = false → d.name ≠ e.name) := by
  obtain ⟨after, horderly⟩ := checkFunction_orderly (checkFunction_eq_nil_of_mem h hf)
  constructor
  · rw [List.Nodup, List.pairwise_map, List.pairwise_filter]
    exact horderly.once.imp fun honce ht _ => honce ht
  · rw [← f.map_name_declarations (p.info libraries).globals, List.Nodup, List.pairwise_map]
    constructor
    · intro hdistinct
      refine hdistinct.imp fun {d e} hne => ?_
      exact fun _ => hne
    · intro huntyped
      refine (horderly.once.and huntyped).imp fun {d e} hboth => ?_
      cases ht : d.typed with
      | true => exact hboth.1 ht
      | false => exact hboth.2 ht

/-- A program with declarations in nested blocks; the type of `y` cannot be told. -/
def branching : Program where
  imports := []
  functions := []
  main :=
    { name := "main", returns := .void, params := [⟨.int, "n", {}⟩], span := {}
      body :=
        { span := {}
          body := [.declare .string "x" (.lit (.string "ab") {}) {},
            .ifElse (.binary .lt (.var "n" {}) (.member (.var "x" {}) "length" {}) {})
              (.block [.declare .int "y" (.member (.var "n" {}) "foo" {}) {}] {})
              (.block [.declare .char "z" (.lit (.string "c") {}) {}] {}) {}] } }
  file := "a.idyl"

/-- The names of an accepted function with nested blocks, all of them different. -/
theorem declared_branching :
    checkProgram branching .empty = [] ∧ branching.main ∈ branching.allFunctions ∧
      branching.main.declared = ["n", "x", "y", "z"] ∧ branching.main.declared.Nodup := by
  have h : checkProgram branching .empty = [] := by decide
  have hmain : branching.main ∈ branching.allFunctions := by simp [Program.allFunctions]
  exact ⟨h, hmain, rfl, (declared_nodup_iff h hmain).2.2 (by decide)⟩

/-- A program with a name that is declared twice, the first time by a member that is not known. -/
def redeclaring : String := "main() { int x = 0; int y = x.foo; int y = 1; }"

/-- The program is read and accepted, and declares `y` twice. -/
lemma check_redeclaring :
    ((parseProgram redeclaring "test.idyl").map fun p =>
      (checkProgram p .empty, p.main.declared)).toOption = some ([], ["x", "y", "y"]) := by
  decide +kernel

/-- Names declared in an accepted function need not be different. -/
theorem declared_twice :
    ∃ p, parseProgram redeclaring "test.idyl" = .ok p ∧ checkProgram p .empty = [] ∧
      ¬p.main.declared.Nodup := by
  have h := check_redeclaring
  cases hp : parseProgram redeclaring "test.idyl" with
  | error e => simp [hp, Except.map, Except.toOption] at h
  | ok p =>
    obtain ⟨hcheck, hdeclared⟩ :
        checkProgram p .empty = [] ∧ p.main.declared = ["x", "y", "y"] := by
      simpa [hp, Except.map, Except.toOption] using h
    exact ⟨p, rfl, hcheck, by rw [hdeclared]; decide⟩

end Idyl
