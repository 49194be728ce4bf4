import Mathlib
import Idyl.Proofs.Typing.Separate

/-!
# Variables may be renamed

Variables have names of their own: a variable may have the name of a function, of a library or of a
member, and the check does not take the one for the other.  Which of them a name stands for is told
by the place where it stands.  So the variables of a function can get other names, if different
variables keep different names and a name that no variable can have is not mixed up with others.
The check then finds the same faults at the same places, and tells them with the new names.

## Main definitions

* `Idyl.Expr.rename`, `Idyl.Stmt.rename`, `Idyl.Function.rename` — phrases with other variables.
* `Idyl.Scope.rename`, `Idyl.Finding.rename` — what the check knows and finds, with other variables.

## Main results

* `Idyl.checkExpr_rename`, `Idyl.checkStmt_rename`, `Idyl.checkFunction_rename` — checking and
  renaming can be exchanged.
* `Idyl.spans_rename` — the places of the errors do not change.
-/

set_option autoImplicit false

namespace Idyl

/-! ## Other names in phrases -/

mutual

/-- An expression with other names for its variables.  The name of a function that is called is no
variable, and neither is the module of a method that is called. -/
def Expr.rename (r : String → String) : Expr → Expr
  | .lit value s => .lit value s
  | .var name s => .var (r name) s
  | .assign name value s => .assign (r name) (value.rename r) s
  | .binary op left right s => .binary op (left.rename r) (right.rename r) s
  | .unary op operand s => .unary op (operand.rename r) s
  | .call (.var function s') args s => .call (.var function s') (Expr.renameAll r args) s
  | .call (.member (.var module s₁) method s₂) args s =>
    .call (.member (.var module s₁) method s₂) (Expr.renameAll r args) s
  | .call callee args s => .call (callee.rename r) (Expr.renameAll r args) s
  | .member object name s => .member (object.rename r) name s

/-- Expressions with other names for their variables. -/
def Expr.renameAll (r : String → String) : List Expr → List Expr
  | [] => []
  | e :: es => e.rename r :: Expr.renameAll r es

end

mutual

/-- A statement with other names for its variables. -/
def Stmt.rename (r : String → String) : Stmt → Stmt
  | .declare type name init s => .declare type (r name) (init.rename r) s
  | .eval e s => .eval (e.rename r) s
  | .block body s => .block (Stmt.renameAll r body) s
  | .ifThen condition thenBranch s => .ifThen (condition.rename r) (thenBranch.rename r) s
  | .ifElse condition thenBranch elseBranch s =>
    .ifElse (condition.rename r) (thenBranch.rename r) (elseBranch.rename r) s
  | .while_ condition body s => .while_ (condition.rename r) (body.rename r) s
  | .return_ (some e) s => .return_ (some (e.rename r)) s
  | .return_ none s => .return_ none s

/-- Statements with other names for their variables. -/
def Stmt.renameAll (r : String → String) : List Stmt → List Stmt
  | [] => []
  | s :: ss => s.rename r :: Stmt.renameAll r ss

end

/-- A parameter with another name. -/
def Param.rename (r : String → String) (p : Param) : Param := { p with name := r p.name }

/-- A function with other names for its parameters and variables; its own name is kept. -/
def Function.rename (r : String → String) (f : Function) : Function :=
  { f with
    params := f.params.map (Param.rename r)
    body := ⟨Stmt.renameAll r f.body.body, f.body.span⟩ }

namespace Expr

variable (r : String → String)

/-- A call of a member of anything but a module. -/
lemma rename_call_member {object : Expr} (h : object.form ≠ .var) (name : String)
    (args : List Expr) (s s' : Span) :
    (Expr.call (.member object name s) args s').rename r =
      .call (.member (object.rename r) name s) (renameAll r args) s' := by
  cases object with
  | var module s => exact absurd rfl h
  | _ => simp only [rename]

/-- A call of what is neither a name nor a member. -/
lemma rename_call_other {callee : Expr} (hvar : callee.form ≠ .var)
    (hmember : callee.form ≠ .member) (args : List Expr) (s : Span) :
    (Expr.call callee args s).rename r = .call (callee.rename r) (renameAll r args) s := by
  cases callee with
  | var name s => exact absurd rfl hvar
  | member object name s => exact absurd rfl hmember
  | _ => simp only [rename]

/-- Renaming keeps the form of an expression, by which callees are told apart, and its place. -/
lemma form_span_rename (e : Expr) : (e.rename r).form = e.form ∧ (e.rename r).span = e.span := by
  cases e with
  | call callee args s =>
    cases callee with
    | member object name s' => cases object <;> exact ⟨rfl, rfl⟩
    | _ => exact ⟨rfl, rfl⟩
  | _ => exact ⟨rfl, rfl⟩

/-- Renaming keeps the form of an expression. -/
@[simp] lemma form_rename (e : Expr) : (e.rename r).form = e.form := (form_span_rename r e).1

/-- Renaming keeps the place of an expression. -/
@[simp] lemma span_rename (e : Expr) : (e.rename r).span = e.span := (form_span_rename r e).2

/-- Renaming keeps the number of arguments. -/
@[simp] lemma length_renameAll (es : List Expr) : (renameAll r es).length = es.length := by
  induction es with
  | nil => rfl
  | cons e es ih => rw [renameAll, List.length_cons, List.length_cons, ih]

end Expr

/-! ## Other names in what the check knows and finds -/

/-- A variable with another name. -/
def Binding.rename (r : String → String) (b : Binding) : Binding := ⟨r b.name, b.type⟩

/-- The variables known, with other names. -/
def Scope.rename (r : String → String) (scope : Scope) : Scope :=
  ⟨scope.bindings.map (Binding.rename r)⟩

/-- A fault, told with other names for variables. -/
def SemanticFault.rename (r : String → String) : SemanticFault → SemanticFault
  | parameterRedeclared name => parameterRedeclared (r name)
  | reservedName name => reservedName (r name)
  | variableRedeclared name => variableRedeclared (r name)
  | notDeclared name => notDeclared (r name)
  | mismatch value name target => mismatch value (r name) target
  | fault => fault

/-- A finding, told with other names for variables. -/
def Finding.rename (r : String → String) (f : Finding) : Finding := ⟨f.fault.rename r, f.span⟩

/-- What checking an expression gives, told with other names for variables. -/
def Typed.rename (r : String → String) (t : Typed) : Typed :=
  ⟨t.type, t.findings.map (Finding.rename r)⟩

/-- What checking a statement gives, told with other names for variables. -/
def Walked.rename (r : String → String) (w : Walked) : Walked :=
  ⟨w.scope.rename r, w.findings.map (Finding.rename r)⟩

section Scopes

variable {r : String → String} (hr : Function.Injective r)

include hr

/-- Different variables keep different names, so under its new name each variable is found. -/
lemma Scope.lookup_rename (scope : Scope) (name : String) :
    (scope.rename r).lookup (r name) = (scope.lookup name).map (Binding.rename r) := by
  have hname : (fun b : Binding => decide (b.name = r name)) ∘ Binding.rename r =
      fun b => decide (b.name = name) := by
    funext b
    exact decide_eq_decide.2 hr.eq_iff
  rw [lookup, rename, List.find?_map, hname, lookup]

/-- A variable has the same type under its new name. -/
lemma Scope.typeOf?_rename (scope : Scope) (name : String) :
    (scope.rename r).typeOf? (r name) = scope.typeOf? name := by
  rw [typeOf?, lookup_rename hr, Option.map_map]
  rfl

/-- A variable is known under its new name if it was under the old one. -/
lemma Scope.contains_rename (scope : Scope) (name : String) :
    (scope.rename r).contains (r name) = scope.contains name := by
  rw [contains, lookup_rename hr, Option.isSome_map, contains]

end Scopes

/-! ## Expressions -/

section Operators

variable (r : String → String)

/-- What is wrong with a call of a method is told without variables. -/
lemma map_rename_checkMethod (g : Globals) (module method : String) (count : Nat) (s : Span) :
    (checkMethod g module method count s).findings.map (Finding.rename r) =
      (checkMethod g module method count s).findings := by
  unfold checkMethod
  split
  · cases ConsoleMethod.ofName? method with
    | none => rfl
    | some m => dsimp only; split <;> rfl
  · split <;> rfl

/-- What is wrong with a call of a function is told without variables. -/
lemma map_rename_checkNamed (g : Globals) (function : String) (count : Nat) (s : Span) :
    (checkNamed g function count s).findings.map (Finding.rename r) =
      (checkNamed g function count s).findings := by
  unfold checkNamed
  split
  · split <;> rfl
  · split <;> rfl

/-- What is wrong with a binary operator is told without variables. -/
lemma map_rename_checkBinary (op : BinaryOp) (left right : Option Ty) (s : Span) :
    (checkBinary op left right s).findings.map (Finding.rename r) =
      (checkBinary op left right s).findings := by
  unfold checkBinary
  split
  · rfl
  · split
    · dsimp only; split <;> rfl
    · rfl

/-- What is wrong with a unary operator is told without variables. -/
lemma map_rename_checkUnary (op : UnaryOp) (operand : Option Ty) (s : Span) :
    (checkUnary op operand s).map (Finding.rename r) = checkUnary op operand s := by
  unfold checkUnary
  cases op <;> dsimp only <;> split <;> rfl

/-- A value that does not fit is told with the new name of its target. -/
lemma checkFits_rename (target : Ty) (name : String) (value : Option Ty) (s : Span) :
    checkFits target (r name) value s = (checkFits target name value s).map (Finding.rename r) := by
  unfold checkFits
  split
  · split <;> rfl
  · rfl

end Operators

section Phrases

variable {r : String → String} (g : Globals)

mutual

/-- **Expressions with other names** have the same types, and the same findings told with the new
names.

**Proof sketch.** By recursion on the expression.  Calls are told apart by their callee, which
stays what it is: a function, a method of a module, or neither. -/
lemma checkExpr_rename (hr : Function.Injective r) (scope : Scope) : ∀ e : Expr,
    checkExpr g (scope.rename r) (e.rename r) = (checkExpr g scope e).rename r := by
  intro e
  cases e with
  | lit value s => rfl
  | var name s =>
    rw [Expr.rename, checkExpr, checkExpr, Scope.typeOf?_rename hr]
    cases scope.typeOf? name <;> rfl
  | assign name value s =>
    rw [Expr.rename, checkExpr, checkExpr, Scope.typeOf?_rename hr, checkExpr_rename hr scope value]
    cases scope.typeOf? name with
    | none => rfl
    | some t => simp only [Typed.rename, List.map_append, checkFits_rename, Expr.span_rename]
  | binary op left right s =>
    rw [Expr.rename, checkExpr, checkExpr, checkExpr_rename hr scope left,
      checkExpr_rename hr scope right]
    simp only [Typed.rename, List.map_append, map_rename_checkBinary]
  | unary op operand s =>
    rw [Expr.rename, checkExpr, checkExpr, checkExpr_rename hr scope operand]
    simp only [Typed.rename, List.map_append, map_rename_checkUnary]
  | member object name s =>
    rw [Expr.rename, checkExpr, checkExpr, checkExpr_rename hr scope object]
    rfl
  | call callee args s =>
    have hargs := checkArgs_rename hr scope args
    cases callee with
    | var function s' =>
      rw [Expr.rename, checkExpr, checkExpr, hargs, Expr.length_renameAll]
      simp only [Typed.rename, List.map_append, map_rename_checkNamed]
    | member object name s' =>
      by_cases hobject : object.form = .var
      · obtain ⟨module, s'', rfl⟩ := Expr.exists_of_form_eq_var hobject
        rw [Expr.rename, checkExpr, checkExpr, hargs, Expr.length_renameAll]
        simp only [Typed.rename, List.map_append, map_rename_checkMethod]
      · rw [Expr.rename_call_member r hobject, checkExpr_call_member _ _ hobject,
          checkExpr_call_member _ _ (by rwa [Expr.form_rename]), checkExpr_rename hr scope object,
          hargs]
        simp only [Typed.rename, List.map_append]
        rfl
    | _ =>
      rw [Expr.rename_call_other r (by nofun) (by nofun),
        checkExpr_call_other _ _ (by rw [Expr.form_rename]; nofun)
          (by rw [Expr.form_rename]; nofun),
        checkExpr_call_other _ _ (by nofun) (by nofun), hargs]
      simp only [Typed.rename, List.map_append]
      rfl

/-- **Arguments with other names** have the same findings told with the new names. -/
lemma checkArgs_rename (hr : Function.Injective r) (scope : Scope) : ∀ es : List Expr,
    checkArgs g (scope.rename r) (Expr.renameAll r es) =
      (checkArgs g scope es).map (Finding.rename r) := by
  intro es
  cases es with
  | nil => rfl
  | cons e es =>
    rw [Expr.renameAll, checkArgs, checkArgs, checkExpr_rename hr scope e,
      checkArgs_rename hr scope es, List.map_append]
    rfl

end

/-! ## Statements -/

/-- A declaration is judged by whether its name is reserved or known, and both stay as they are. -/
lemma checkDeclare_rename (hr : Function.Injective r)
    (hreserved : ∀ name, isReserved (r name) = isReserved name) (scope : Scope) (type : Ty)
    (name : String) (init : Expr) (s : Span) :
    checkDeclare g (scope.rename r) type (r name) (init.rename r) s =
      (checkDeclare g scope type name init s).rename r := by
  unfold checkDeclare
  rw [hreserved, Scope.contains_rename hr, checkExpr_rename g hr, Expr.span_rename]
  generalize checkExpr g scope init = value
  obtain ⟨v, found⟩ := value
  split
  · rfl
  · split
    · rfl
    · cases v with
      | none => rfl
      | some v =>
        simp only [Typed.rename]
        split
        · rfl
        · simp only [Walked.rename, List.map_append]
          rfl

mutual

/-- **Statements with other names** make the same variables known under the new names, and have the
same findings told with them. -/
lemma checkStmt_rename (hr : Function.Injective r)
    (hreserved : ∀ name, isReserved (r name) = isReserved name) : ∀ (scope : Scope) (s : Stmt),
    checkStmt g (scope.rename r) (s.rename r) = (checkStmt g scope s).rename r := by
  intro scope s
  cases s with
  | declare type name init s =>
    rw [Stmt.rename, checkStmt, checkStmt, checkDeclare_rename g hr hreserved]
  | eval e s =>
    rw [Stmt.rename, checkStmt, checkStmt, checkExpr_rename g hr]
    rfl
  | block body s =>
    rw [Stmt.rename, checkStmt, checkStmt, checkStmts_rename hr hreserved scope body]
  | ifThen condition thenBranch s =>
    rw [Stmt.rename, checkStmt, checkStmt, checkExpr_rename g hr,
      checkStmt_rename hr hreserved scope thenBranch]
    simp only [Walked.rename, List.map_append]
    rfl
  | ifElse condition thenBranch elseBranch s =>
    rw [Stmt.rename, checkStmt, checkStmt, checkExpr_rename g hr,
      checkStmt_rename hr hreserved scope thenBranch]
    simp only [Walked.rename, List.map_append]
    rw [checkStmt_rename hr hreserved _ elseBranch]
    rfl
  | while_ condition body s =>
    rw [Stmt.rename, checkStmt, checkStmt, checkExpr_rename g hr,
      checkStmt_rename hr hreserved scope body]
    simp only [Walked.rename, List.map_append]
    rfl
  | return_ value s =>
    cases value with
    | none => rfl
    | some e =>
      rw [Stmt.rename, checkStmt, checkStmt, checkExpr_rename g hr]
      rfl

/-- **Statements with other names**, one after the other. -/
lemma checkStmts_rename (hr : Function.Injective r)
    (hreserved : ∀ name, isReserved (r name) = isReserved name) : ∀ (scope : Scope)
    (ss : List Stmt),
    checkStmts g (scope.rename r) (Stmt.renameAll r ss) = (checkStmts g scope ss).rename r := by
  intro scope ss
  cases ss with
  | nil => rfl
  | cons s ss =>
    rw [Stmt.renameAll, checkStmts, checkStmts, checkStmt_rename hr hreserved scope s]
    simp only [Walked.rename, List.map_append]
    rw [checkStmts_rename hr hreserved _ ss]
    rfl

end

/-! ## Functions and programs -/

/-- Parameters are not asked whether their names are reserved. -/
lemma checkParams_rename (hr : Function.Injective r) (scope : Scope) (ps : List Param) :
    checkParams (scope.rename r) (ps.map (Param.rename r)) = (checkParams scope ps).rename r := by
  induction ps generalizing scope with
  | nil => rfl
  | cons p ps ih =>
    have hlookup : (scope.rename r).lookup (p.rename r).name =
        (scope.lookup p.name).map (Binding.rename r) := scope.lookup_rename hr p.name
    rw [List.map_cons, checkParams, checkParams, Scope.define, Scope.define, hlookup]
    cases scope.lookup p.name with
    | none => exact ih (scope.bind ⟨p.name, p.type⟩)
    | some old =>
      simp only [Option.map_some, ih scope]
      rfl

/-- **Functions with other names** have the same findings told with the new names. -/
lemma checkFunction_rename (hr : Function.Injective r)
    (hreserved : ∀ name, isReserved (r name) = isReserved name) (f : Function) :
    checkFunction g (f.rename r) = (checkFunction g f).map (Finding.rename r) := by
  have hparams : checkParams {} (f.rename r).params = (checkParams {} f.params).rename r :=
    checkParams_rename hr {} f.params
  rw [checkFunction, checkFunction, hparams, List.map_append]
  exact congrArg (_ ++ Walked.findings ·) (checkStmts_rename g hr hreserved _ f.body.body)

end Phrases

/-- In the second program one function of the first one has other names for its parameters and
variables. -/
inductive Program.RenamedIn (r : String → String) (p : Program) : Program → Prop
  | function {before after : List Function} {f : Function}
      (h : p.functions = before ++ f :: after) :
      RenamedIn r p { p with functions := before ++ f.rename r :: after }
  | main : RenamedIn r p { p with main := p.main.rename r }

namespace Program.RenamedIn

variable {r : String → String} {p p' : Program}

/-- The file is the same. -/
lemma file_eq (h : p.RenamedIn r p') : p'.file = p.file := by
  cases h <;> rfl

/-- The functions have the same headers. -/
lemma headers_eq (h : p.RenamedIn r p') :
    p'.functions.map Function.header = p.functions.map Function.header := by
  cases h with
  | function hsplit =>
    rw [hsplit, List.map_append, List.map_append]
    rfl
  | main => rfl

/-- The function with other names has its place among the functions that are checked. -/
lemma exists_split (h : p.RenamedIn r p') : ∃ before f after,
    p.allFunctions = before ++ f :: after ∧ p'.allFunctions = before ++ f.rename r :: after := by
  cases h with
  | @function before after f hsplit =>
    refine ⟨before, f, after ++ [p.main], ?_, List.append_assoc ..⟩
    rw [Program.allFunctions, hsplit]
    exact List.append_assoc ..
  | main => exact ⟨p.functions, p.main, [], rfl, rfl⟩

end Program.RenamedIn

/-- The errors of a function with other names are at the same places. -/
lemma Function.map_span_errors_rename {r : String → String} (hr : Function.Injective r)
    (hreserved : ∀ name, isReserved (r name) = isReserved name) (functions libraries : NameSet)
    (file : String) (f : Function) :
    ((f.rename r).errors functions libraries file).map (·.span) =
      (f.errors functions libraries file).map (·.span) := by
  rw [errors_eq, errors_eq, checkFunction_rename _ hr hreserved, List.map_map, List.map_map,
    List.map_map]
  rfl

/-- **Variables may be renamed.**  Let a program get other names for the parameters and variables of
one function, wherever they are declared, read or assigned to; names of functions, modules and
members stay.  If different names stay different, and a name is reserved exactly if the new name
is, then the errors are at the same places, and the program is accepted or not as before.

**Proof sketch.** Functions are checked apart, so only the errors of this one function are in
question, and they are the same up to the names in their wording (`Idyl.checkFunction_rename`). -/
theorem spans_rename {r : String → String} (hr : Function.Injective r)
    (hreserved : ∀ name, isReserved (r name) = isReserved name) {p p' : Program}
    (h : p.RenamedIn r p') (libraries : NameSet) :
    (checkProgram p' libraries).map (·.span) = (checkProgram p libraries).map (·.span) ∧
      (checkProgram p' libraries = [] ↔ checkProgram p libraries = []) := by
  have hspans : (checkProgram p' libraries).map (·.span) =
      (checkProgram p libraries).map (·.span) := by
    obtain ⟨before, f, after, hall, hall'⟩ := h.exists_split
    rw [checkProgram_eq_of_headers libraries h.headers_eq h.file_eq,
      checkProgram_eq_of_headers (p := p) libraries rfl rfl, hall, hall']
    simp only [List.flatMap_append, List.flatMap_cons, List.map_append,
      Function.map_span_errors_rename hr hreserved]
  refine ⟨hspans, ?_⟩
  rw [← List.map_eq_nil_iff, hspans, List.map_eq_nil_iff]

/-- A parameter that gets the name of a function that does not exist leaves it unknown. -/
theorem spans_rename_sharing :
    sharing.RenamedIn (Equiv.swap "n" "h")
      { sharing with functions := [borrowing] ++ lending.rename (Equiv.swap "n" "h") :: [] } ∧
    (checkProgram
        { sharing with functions := [borrowing] ++ lending.rename (Equiv.swap "n" "h") :: [] }
        .empty).map (·.span) =
      [⟨30, 31, 1, 31⟩, ⟨60, 63, 2, 26⟩] := by
  have hrenamed : sharing.RenamedIn (Equiv.swap "n" "h")
      { sharing with functions := [borrowing] ++ lending.rename (Equiv.swap "n" "h") :: [] } :=
    .function rfl
  have hreserved : ∀ name, isReserved (Equiv.swap "n" "h" name) = isReserved name := by
    intro name
    rw [Equiv.swap_apply_def]
    split_ifs with hn hh
    · rw [hn]
      decide
    · rw [hh]
      decide
    · rfl
  refine ⟨hrenamed, ?_⟩
  rw [(spans_rename (Equiv.swap "n" "h").injective hreserved hrenamed .empty).1]
  decide

end Idyl
