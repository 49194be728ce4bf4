import Mathlib
import Idyl.Typing.Check

/-!
# An analyzer

The check tells the faults of every phrase by themselves and puts the lists together.  The same
faults are found by an analyzer, which goes over a program once.  It keeps the names that it has
seen declared, and one list of errors, to whose end it adds what it finds.  In a function it keeps a
scope besides, which every statement may change.  All of this is at hand everywhere.

Nothing in how the analyzer is built keeps functions apart.  That they are is shown here, phrase by
phrase: whatever was found before, a phrase adds the errors that the check tells of it, and leaves
the names alone.

## Main definitions

* `Idyl.Analyzer`, `Idyl.Analyzer.report` — what is kept, and adding an error.
* `Idyl.Analysis` — what is done inside a function.
* `Idyl.Analysis.expression`, `Idyl.Analysis.statement`, `Idyl.Analysis.body` — going over phrases.
* `Idyl.Analyzer.declare`, `Idyl.Analyzer.function`, `Idyl.Analyzer.program` — going over programs.
* `Idyl.Analysis.Finds` — a phrase adds errors, whatever was found before.

## Main results

* `Idyl.Analysis.finds_expression`, `Idyl.Analysis.finds_statement`, `Idyl.Analysis.finds_body` — a
  phrase adds the errors that the check tells of it.
* `Idyl.Analyzer.function_eq` — a function adds its errors and changes nothing else.
* `Idyl.Analyzer.program_eq` — the analyzer ends with the names and the errors of the program.
-/

set_option autoImplicit false

namespace Idyl

/-- What is kept while a program is gone over: its file, the names known so far, and the errors
found so far, in their order. -/
structure Analyzer where
  file : String
  info : ProgramInfo
  errors : List SemanticError

/-- What is done inside a function, where there is a scope besides. -/
abbrev Analysis : Type → Type := StateT Scope (StateM Analyzer)

namespace Analyzer

/-- An analyzer that knows nothing but libraries. -/
def ofLibraries (libraries : NameSet) : Analyzer where
  file := "<input>"
  info := { imports := .empty, functions := .empty, libraries }
  errors := []

/-- Adds an error in the file that is gone over. -/
def report (a : Analyzer) (fault : SemanticFault) (span : Span) : Analyzer :=
  { a with errors := a.errors ++ [⟨fault, a.file, span⟩] }

end Analyzer

/-! ## Expressions -/

namespace Analysis

/-- Adds an error. -/
def report (fault : SemanticFault) (span : Span) : Analysis Unit :=
  modifyThe Analyzer fun a => a.report fault span

/-- Adds an error unless something holds. -/
def require (holds : Bool) (fault : SemanticFault) (span : Span) : Analysis Unit :=
  if holds then pure () else report fault span

/-- A variable. -/
def name (name : String) (span : Span) : Analysis (Option Ty) := do
  let scope ← get
  match scope.lookup name with
  | some b => return some b.type
  | none => do
    report (.notDeclared name) span
    return none

/-- An assignment.  It has the type of its target also if the value does not fit. -/
def assignment (name : String) (value : Analysis (Option Ty)) (valueSpan span : Span) :
    Analysis (Option Ty) := do
  let scope ← get
  require (scope.contains name) (.notDeclared name) span
  let v ← value
  match scope.lookup name, v with
  | none, _ => return none
  | some b, none => return some b.type
  | some b, some v => do
    require (b.type.accepts v) (.mismatch v name b.type) valueSpan
    return some b.type

/-- Two operands and an operator.  Only the operands of arithmetic are looked at. -/
def binary (op : BinaryOp) (left right : Analysis (Option Ty)) (span : Span) :
    Analysis (Option Ty) := do
  let l ← left
  let r ← right
  if op.isComparison then return some .bool
  else if op.isArithmetic then do
    require (isNumber l && isNumber r) (.notNumbers op l r) span
    return arithmeticType l r
  else return l

/-- An operand and an operator. -/
def unary (op : UnaryOp) (operand : Analysis (Option Ty)) (span : Span) :
    Analysis (Option Ty) := do
  let t ← operand
  match op with
  | .neg => require (isNumber t) .negatedNoNumber span
  | .not => require (t = some .bool) .negatedNoBool span
  return t

/-- A call of a method of a module. -/
def method (module method : String) (args : Analysis Unit) (count : Nat) (span : Span) :
    Analysis (Option Ty) := do
  args
  if module = consoleModule then
    match ConsoleMethod.ofName? method with
    | none => do
      report (.unknownMethod module method) span
      return none
    | some m => do
      require (!m.arity?.any (· ≠ count)) (.takesNone module m.name count) span
      return some m.returns
  else do
    let a ← getThe Analyzer
    if module ∈ a.info.libraries then return some .void
    else do
      report (.unknownModule module) span
      return none

/-- A call of a function by its name. -/
def named (function : String) (args : Analysis Unit) (count : Nat) (span : Span) :
    Analysis (Option Ty) := do
  args
  match Conversion.ofName? function with
  | some c =>
    if count = 1 then return some c.returns
    else do
      report (.takesOne c.name count) span
      return none
  | none => do
    let a ← getThe Analyzer
    if function ∈ a.info.functions then return some .void
    else do
      report (.unknownFunction function) span
      return none

mutual

/-- An expression. -/
def expression : Expr → Analysis (Option Ty)
  | .lit value _ => return some value.type
  | .var x span => name x span
  | .assign x value span => assignment x (expression value) value.span span
  | .binary op left right span => binary op (expression left) (expression right) span
  | .unary op operand span => unary op (expression operand) span
  | .call (.member (.var module _) m _) args span =>
    method module m (arguments args) args.length span
  | .call (.member object x _) args span => do
    let _ ← expression object
    arguments args
    report (.memberCalled x) span
    return none
  | .call (.var function _) args span => named function (arguments args) args.length span
  | .call _ args span => do
    arguments args
    report .notCallable span
    return none
  | .member object x _ => do
    let t ← expression object
    return if t = some .string && x = "length" then some .int else none

/-- The arguments of a call. -/
def arguments : List Expr → Analysis Unit
  | [] => return
  | e :: es => do
    let _ ← expression e
    arguments es

end

/-- A call of a member of anything but a module. -/
lemma expression_call_member {object : Expr} (h : object.form ≠ .var) (x : String)
    (args : List Expr) (s span : Span) :
    expression (.call (.member object x s) args span) = do
      let _ ← expression object
      arguments args
      report (.memberCalled x) span
      return none := by
  cases object with
  | var module s => exact absurd rfl h
  | _ => simp only [expression]

/-- A call of what is neither a name nor a member. -/
lemma expression_call_other {callee : Expr} (hvar : callee.form ≠ .var)
    (hmember : callee.form ≠ .member) (args : List Expr) (span : Span) :
    expression (.call callee args span) = do
      arguments args
      report .notCallable span
      return none := by
  cases callee with
  | var name s => exact absurd rfl hvar
  | member object name s => exact absurd rfl hmember
  | _ => simp only [expression]

/-! ## Statements -/

/-- The declaration of a variable, which is known afterwards only if its first value fits. -/
def declaration (type : Ty) (name : String) (init : Expr) (span : Span) : Analysis Unit := do
  let scope ← get
  if isReserved name then do
    report (.reservedName name) span
    let _ ← expression init
  else if scope.contains name then do
    report (.variableRedeclared name) span
    let _ ← expression init
  else do
    match ← expression init with
    | none => return
    | some v =>
      if type.accepts v then modify fun scope => scope.bind ⟨name, type⟩
      else report (.mismatch v name type) init.span

mutual

/-- A statement. -/
def statement : Stmt → Analysis Unit
  | .declare type name init span => declaration type name init span
  | .eval e _ => do
    let _ ← expression e
  | .block body _ => statements body
  | .ifThen condition thenBranch _ => do
    let _ ← expression condition
    statement thenBranch
  | .ifElse condition thenBranch elseBranch _ => do
    let _ ← expression condition
    statement thenBranch
    statement elseBranch
  | .while_ condition body _ => do
    let _ ← expression condition
    statement body
  | .return_ (some e) _ => do
    let _ ← expression e
  | .return_ none _ => return

/-- Statements one after the other. -/
def statements : List Stmt → Analysis Unit
  | [] => return
  | s :: ss => do
    statement s
    statements ss

end

/-- A parameter. -/
def parameter (p : Param) : Analysis Unit := do
  let scope ← get
  match scope.define ⟨p.name, p.type⟩ with
  | .ok scope => set scope
  | .error _ => report (.parameterRedeclared p.name) p.span

/-- The parameters of a function and the statements in it. -/
def body (f : Function) : Analysis Unit := do
  f.params.forM parameter
  statements f.body.body

end Analysis

/-! ## Programs -/

namespace Analyzer

/-- A module that is imported. -/
def import_ (a : Analyzer) (i : Import) : Analyzer :=
  { a with info := { a.info with imports := a.info.imports.insert i.name } }

/-- A function becomes known by its name. -/
def know (a : Analyzer) (name : String) : Analyzer :=
  { a with info := { a.info with functions := a.info.functions.insert name } }

/-- The name of a function, which no earlier function should have. -/
def declare (a : Analyzer) (f : Function) : Analyzer :=
  if f.name ∈ a.info.functions then (a.know f.name).report (.functionRedefined f.name) f.span
  else a.know f.name

/-- A function.  Its scope is new, and is given up at its end. -/
def function (a : Analyzer) (f : Function) : Analyzer :=
  (((Analysis.body f).run {}).run a).2

/-- A program: its names first, and then its functions one after the other. -/
def program (a : Analyzer) (p : Program) : Analyzer :=
  let named := p.functions.foldl declare (p.imports.foldl import_ { a with file := p.file })
  p.allFunctions.foldl function named

/-- The errors that are found in a program. -/
def collect (p : Program) (libraries : NameSet) : List SemanticError :=
  ((ofLibraries libraries).program p).errors

/-- An analyzer that has found something more. -/
def found (a : Analyzer) (fs : List Finding) : Analyzer :=
  { a with errors := a.errors ++ fs.map (·.inFile a.file) }

/-- Finding nothing leaves everything as it is. -/
@[simp] lemma found_nil (a : Analyzer) : a.found [] = a := by
  rw [found, List.map_nil, List.append_nil]

/-- What is found in two goes is found in one. -/
lemma found_found (a : Analyzer) (fs fs' : List Finding) :
    (a.found fs).found fs' = a.found (fs ++ fs') := by
  rw [found, found, found, List.map_append, List.append_assoc]

end Analyzer

/-! ## What is found -/

namespace Analysis

variable {α β : Type} {g : Globals}

/-- **What is found.**  Starting with a scope, an analysis gives a value, leaves a scope and adds
errors.  It depends on the functions and libraries that can be called, and on nothing else of what
the analyzer keeps: not on the modules that are imported, and not on what was found before. -/
def Finds (g : Globals) (m : Analysis α) (scope : Scope) (value : α) (scope' : Scope)
    (fs : List Finding) : Prop :=
  ∀ a : Analyzer, a.info.globals = g → (m.run scope).run a = ((value, scope'), a.found fs)

/-- A value by itself adds nothing. -/
lemma finds_pure (value : α) (scope : Scope) : Finds g (pure value) scope value scope [] := by
  intro a _
  rw [a.found_nil]
  rfl

/-- An error is added, whatever was found before. -/
lemma finds_report (fault : SemanticFault) (span : Span) (scope : Scope) :
    Finds g (report fault span) scope () scope [⟨fault, span⟩] :=
  fun _ _ => rfl

/-- An error is added unless something holds. -/
lemma finds_require (holds : Bool) (fault : SemanticFault) (span : Span) (scope : Scope) :
    Finds g (require holds fault span) scope () scope (if holds then [] else [⟨fault, span⟩]) := by
  cases holds with
  | true => exact finds_pure () scope
  | false => exact finds_report fault span scope

/-- The scope can be asked for. -/
lemma finds_get (scope : Scope) : Finds g get scope scope scope [] := by
  intro a _
  rw [a.found_nil]
  rfl

/-- The scope can be changed. -/
lemma finds_set (scope scope' : Scope) : Finds g (set scope') scope ⟨⟩ scope' [] := by
  intro a _
  rw [a.found_nil]
  rfl

/-- **One after the other.**  The second analysis starts with the scope that the first one left, and
adds its errors behind; the names are as before. -/
lemma Finds.bind {m : Analysis α} {f : α → Analysis β} {scope scope' scope'' : Scope} {v : α}
    {w : β} {fs fs' : List Finding} (hm : Finds g m scope v scope' fs)
    (hf : Finds g (f v) scope' w scope'' fs') : Finds g (m >>= f) scope w scope'' (fs ++ fs') := by
  intro a ha
  have hfirst : m scope a = ((v, scope'), a.found fs) := hm a ha
  show ((f (m scope a).1.1).run (m scope a).1.2).run (m scope a).2 = _
  rw [hfirst, hf (a.found fs) ha, a.found_found]

/-- Behind what adds nothing and leaves the scope alone. -/
lemma Finds.after {m : Analysis α} {f : α → Analysis β} {scope scope' scope'' : Scope} {v : α}
    {w : β} {fs : List Finding} (hm : Finds g m scope v scope' [])
    (hf : Finds g (f v) scope' w scope'' fs) : Finds g (m >>= f) scope w scope'' fs :=
  hm.bind hf

/-- In front of what adds nothing. -/
lemma Finds.before {m : Analysis α} {f : α → Analysis β} {scope scope' scope'' : Scope} {v : α}
    {w : β} {fs : List Finding} (hm : Finds g m scope v scope' fs)
    (hf : Finds g (f v) scope' w scope'' []) : Finds g (m >>= f) scope w scope'' fs := by
  have hboth := hm.bind hf
  rwa [List.append_nil] at hboth

/-- Asking for what the analyzer keeps, as long as only the functions and libraries matter. -/
lemma finds_asking {f : Analyzer → Analysis β} {scope scope' : Scope} {w : β} {fs : List Finding}
    (hf : ∀ a, a.info.globals = g → Finds g (f a) scope w scope' fs) :
    Finds g (getThe Analyzer >>= f) scope w scope' fs :=
  fun a ha => hf a ha a ha

/-- An error and no value. -/
lemma finds_reported (fault : SemanticFault) (span : Span) (scope : Scope) :
    Finds g (do report fault span; return (none : Option Ty)) scope none scope [⟨fault, span⟩] :=
  (finds_report fault span scope).bind (finds_pure none scope)

/-- A value and an error unless something holds. -/
lemma finds_required (holds : Bool) (fault : SemanticFault) (span : Span) (value : α)
    (scope : Scope) :
    Finds g (do require holds fault span; return value) scope value scope
      (if holds then [] else [⟨fault, span⟩]) :=
  (finds_require holds fault span scope).before (finds_pure value scope)

/-! ## Expressions add what the check tells of them -/

/-- A variable. -/
lemma finds_name (x : String) (span : Span) (scope : Scope) :
    Finds g (name x span) scope (checkExpr g scope (.var x span)).type scope
      (checkExpr g scope (.var x span)).findings := by
  refine (finds_get scope).after ?_
  rw [checkExpr, Scope.typeOf?]
  cases scope.lookup x with
  | some b => exact finds_pure _ scope
  | none => exact finds_reported _ span scope

section Operands

variable {scope : Scope} {value left right : Analysis (Option Ty)} {v l r : Typed}

/-- An assignment, given what its value adds. -/
lemma finds_assignment {e : Expr}
    (hvalue : Finds g value scope (checkExpr g scope e).type scope (checkExpr g scope e).findings)
    (x : String) (span : Span) :
    Finds g (assignment x value e.span span) scope
      (checkExpr g scope (.assign x e span)).type scope
      (checkExpr g scope (.assign x e span)).findings := by
  refine (finds_get scope).after ?_
  rw [checkExpr, Scope.typeOf?, Scope.contains]
  cases scope.lookup x with
  | none =>
    exact (finds_report _ span scope).bind (hvalue.before (finds_pure none scope))
  | some b =>
    refine (finds_pure () scope).after (hvalue.bind ?_)
    unfold checkFits
    cases (checkExpr g scope e).type with
    | none => exact finds_pure _ scope
    | some v => exact finds_required _ _ _ _ scope

/-- Two operands and an operator, given what the operands add. -/
lemma finds_binary (hleft : Finds g left scope l.type scope l.findings)
    (hright : Finds g right scope r.type scope r.findings) (op : BinaryOp) (span : Span) :
    Finds g (binary op left right span) scope (checkBinary op l.type r.type span).type scope
      (l.findings ++ r.findings ++ (checkBinary op l.type r.type span).findings) := by
  rw [List.append_assoc]
  refine hleft.bind (hright.bind ?_)
  unfold checkBinary
  split
  · exact finds_pure _ scope
  · split
    · exact finds_required _ _ _ _ scope
    · exact finds_pure _ scope

/-- An operand and an operator, given what the operand adds. -/
lemma finds_unary (hvalue : Finds g value scope v.type scope v.findings) (op : UnaryOp)
    (span : Span) :
    Finds g (unary op value span) scope v.type scope
      (v.findings ++ checkUnary op v.type span) := by
  refine hvalue.bind ?_
  cases op with
  | neg => exact finds_required _ _ _ _ scope
  | not =>
    convert finds_required (g := g) (decide (v.type = some .bool)) .negatedNoBool span v.type scope
      using 1
    simp only [checkUnary, decide_eq_true_eq]

/-- A call of a method, given what the arguments add. -/
lemma finds_method {args : Analysis Unit} {fs : List Finding}
    (hargs : Finds g args scope () scope fs) (module m : String) (count : Nat) (span : Span) :
    Finds g (method module m args count span) scope (checkMethod g module m count span).type scope
      (fs ++ (checkMethod g module m count span).findings) := by
  refine hargs.bind ?_
  unfold checkMethod
  split
  · cases ConsoleMethod.ofName? m with
    | none => exact finds_reported _ span scope
    | some m =>
      dsimp only
      generalize m.arity?.any (· ≠ count) = surplus
      cases surplus with
      | true => exact finds_required false _ _ _ scope
      | false => exact finds_required true _ _ _ scope
  · refine finds_asking fun a ha => ?_
    rw [← ha, ProgramInfo.globals]
    split
    · exact finds_pure _ scope
    · exact finds_reported _ span scope

/-- A call of a function, given what the arguments add. -/
lemma finds_named {args : Analysis Unit} {fs : List Finding}
    (hargs : Finds g args scope () scope fs) (function : String) (count : Nat) (span : Span) :
    Finds g (named function args count span) scope (checkNamed g function count span).type scope
      (fs ++ (checkNamed g function count span).findings) := by
  refine hargs.bind ?_
  unfold checkNamed
  cases Conversion.ofName? function with
  | some c =>
    dsimp only
    split
    · exact finds_pure _ scope
    · exact finds_reported _ span scope
  | none =>
    refine finds_asking fun a ha => ?_
    rw [← ha, ProgramInfo.globals]
    dsimp only
    split
    · exact finds_pure _ scope
    · exact finds_reported _ span scope

end Operands

mutual

/-- **Expressions** have the type that the check tells, add the errors that it tells, and leave the
scope alone.

**Proof sketch.** By recursion on the expression, with one rule for each form. -/
lemma finds_expression (scope : Scope) : ∀ e : Expr,
    Finds g (expression e) scope (checkExpr g scope e).type scope
      (checkExpr g scope e).findings := by
  intro e
  cases e with
  | lit value span =>
    rw [expression, checkExpr]
    exact finds_pure _ scope
  | var x span =>
    rw [expression]
    exact finds_name x span scope
  | assign x value span =>
    rw [expression]
    exact finds_assignment (finds_expression scope value) x span
  | binary op left right span =>
    rw [expression, checkExpr]
    exact finds_binary (finds_expression scope left) (finds_expression scope right) op span
  | unary op operand span =>
    rw [expression, checkExpr]
    exact finds_unary (finds_expression scope operand) op span
  | member object x span =>
    rw [expression, checkExpr]
    exact (finds_expression scope object).before (finds_pure _ scope)
  | call callee args span =>
    have hargs := finds_arguments scope args
    have hfault (fault : SemanticFault) :
        Finds g (do arguments args; report fault span; return (none : Option Ty)) scope none scope
          (checkArgs g scope args ++ [⟨fault, span⟩]) :=
      hargs.bind (finds_reported fault span scope)
    cases callee with
    | var function s =>
      rw [expression, checkExpr]
      exact finds_named hargs function args.length span
    | member object x s =>
      by_cases hobject : object.form = .var
      · obtain ⟨module, s', rfl⟩ := Expr.exists_of_form_eq_var hobject
        rw [expression, checkExpr]
        exact finds_method hargs module x args.length span
      · rw [checkExpr_call_member _ _ hobject, List.append_assoc, expression_call_member hobject]
        exact (finds_expression scope object).bind (hfault _)
    | _ =>
      rw [checkExpr_call_other _ _ (by nofun) (by nofun),
        expression_call_other (by nofun) (by nofun)]
      exact hfault _

/-- **Arguments** add the errors that the check tells of them, and leave the scope alone. -/
lemma finds_arguments (scope : Scope) : ∀ es : List Expr,
    Finds g (arguments es) scope () scope (checkArgs g scope es) := by
  intro es
  cases es with
  | nil =>
    rw [arguments, checkArgs]
    exact finds_pure () scope
  | cons e es =>
    rw [arguments, checkArgs]
    exact (finds_expression scope e).bind (finds_arguments scope es)

end

/-! ## Statements add what the check tells of them -/

/-- A phrase whose value is not used. -/
lemma finds_evaluated (scope : Scope) (e : Expr) :
    Finds g (do let _ ← expression e) scope () scope (checkExpr g scope e).findings :=
  (finds_expression scope e).before (finds_pure () scope)

/-- A declaration adds its errors, and its variable to the scope if nothing is wrong. -/
lemma finds_declaration (scope : Scope) (type : Ty) (x : String) (init : Expr) (span : Span) :
    Finds g (declaration type x init span) scope () (checkDeclare g scope type x init span).scope
      (checkDeclare g scope type x init span).findings := by
  have hinit := finds_expression (g := g) scope init
  have hfault (fault : SemanticFault) :
      Finds g (do report fault span; let _ ← expression init) scope () scope
        (⟨fault, span⟩ :: (checkExpr g scope init).findings) :=
    (finds_report fault span scope).bind (finds_evaluated scope init)
  refine (finds_get scope).after ?_
  unfold checkDeclare
  split
  · exact hfault _
  · split
    · exact hfault _
    · dsimp only
      cases hvalue : (checkExpr g scope init).type with
      | none =>
        rw [hvalue] at hinit
        exact hinit.before (finds_pure () scope)
      | some v =>
        rw [hvalue] at hinit
        dsimp only
        by_cases hfits : type.accepts v = true
        · rw [if_pos hfits]
          refine hinit.before ?_
          show Finds g (if _ then _ else _) _ _ _ _
          rw [if_pos hfits]
          exact finds_set scope _
        · rw [if_neg hfits]
          refine hinit.bind ?_
          show Finds g (if _ then _ else _) _ _ _ _
          rw [if_neg hfits]
          exact finds_report _ _ scope

mutual

/-- **Statements** leave the scope that the check tells, and add the errors that it tells.

**Proof sketch.** By recursion on the statement; conditions and branches stand one after the
other. -/
lemma finds_statement : ∀ (scope : Scope) (s : Stmt),
    Finds g (statement s) scope () (checkStmt g scope s).scope (checkStmt g scope s).findings := by
  intro scope s
  cases s with
  | declare type x init span =>
    rw [statement, checkStmt]
    exact finds_declaration scope type x init span
  | eval e span =>
    rw [statement, checkStmt]
    exact finds_evaluated scope e
  | block body span =>
    rw [statement, checkStmt]
    exact finds_statements scope body
  | ifThen condition thenBranch span =>
    rw [statement, checkStmt]
    exact (finds_expression scope condition).bind (finds_statement scope thenBranch)
  | ifElse condition thenBranch elseBranch span =>
    rw [statement, checkStmt, List.append_assoc]
    exact (finds_expression scope condition).bind
      ((finds_statement scope thenBranch).bind (finds_statement _ elseBranch))
  | while_ condition body span =>
    rw [statement, checkStmt]
    exact (finds_expression scope condition).bind (finds_statement scope body)
  | return_ value span =>
    cases value with
    | some e =>
      rw [statement, checkStmt]
      exact finds_evaluated scope e
    | none =>
      rw [statement, checkStmt]
      exact finds_pure () scope

/-- **Statements one after the other**, each with the scope that the one before left. -/
lemma finds_statements : ∀ (scope : Scope) (ss : List Stmt),
    Finds g (statements ss) scope () (checkStmts g scope ss).scope
      (checkStmts g scope ss).findings := by
  intro scope ss
  cases ss with
  | nil =>
    rw [statements, checkStmts]
    exact finds_pure () scope
  | cons s ss =>
    rw [statements, checkStmts]
    exact (finds_statement scope s).bind (finds_statements _ ss)

end

/-- Parameters are put into the scope one after the other. -/
lemma finds_parameters (scope : Scope) (ps : List Param) :
    Finds g (ps.forM parameter) scope ⟨⟩ (checkParams scope ps).scope
      (checkParams scope ps).findings := by
  induction ps generalizing scope with
  | nil => exact finds_pure _ scope
  | cons p ps ih =>
    rw [checkParams]
    cases hdefine : scope.define ⟨p.name, p.type⟩ with
    | ok scope' =>
      have hparameter : Finds g (parameter p) scope () scope' [] := by
        refine (finds_get scope).after ?_
        rw [hdefine]
        exact finds_set scope scope'
      exact hparameter.after (ih scope')
    | error old =>
      have hparameter : Finds g (parameter p) scope () scope
          [⟨.parameterRedeclared p.name, p.span⟩] := by
        refine (finds_get scope).after ?_
        rw [hdefine]
        exact finds_report _ _ scope
      exact hparameter.bind (ih scope)

/-- **Functions** add the errors that the check tells. -/
lemma finds_body (f : Function) :
    Finds g (body f) {} () (checkStmts g (checkParams {} f.params).scope f.body.body).scope
      (checkFunction g f) :=
  (finds_parameters {} f.params).bind (finds_statements _ f.body.body)

end Analysis

namespace Analyzer

/-- **A function adds its errors and changes nothing else.**  They depend on the functions and
libraries that can be called, and on the file. -/
lemma function_eq (a : Analyzer) (f : Function) :
    a.function f = a.found (checkFunction a.info.globals f) := by
  rw [function, Analysis.finds_body f a rfl]

/-- Functions one after the other add their errors one after the other. -/
lemma foldl_function (a : Analyzer) (fs : List Function) :
    fs.foldl function a = a.found (fs.flatMap (checkFunction a.info.globals)) := by
  induction fs generalizing a with
  | nil => exact a.found_nil.symm
  | cons f fs ih =>
    rw [List.foldl_cons, function_eq, ih, found_found]
    rfl

/-- Imported modules are collected. -/
lemma foldl_import_ (a : Analyzer) (is : List Import) :
    is.foldl import_ a =
      { a with
        info := { a.info with imports := (is.map (·.name)).foldl .insert a.info.imports } } := by
  induction is generalizing a with
  | nil => rfl
  | cons i is ih =>
    rw [List.foldl_cons, ih]
    rfl

/-- The names of functions are collected. -/
lemma foldl_know (a : Analyzer) (ns : List String) :
    ns.foldl know a =
      { a with info := { a.info with functions := ns.foldl .insert a.info.functions } } := by
  induction ns generalizing a with
  | nil => rfl
  | cons n ns ih =>
    rw [List.foldl_cons, ih]
    rfl

/-- Names become known apart from what is found. -/
lemma foldl_know_found (a : Analyzer) (ns : List String) (fs : List Finding) :
    ns.foldl know (a.found fs) = (ns.foldl know a).found fs := by
  rw [foldl_know, foldl_know]
  rfl

/-- Functions become known, and those that are found to be known already are those that the check
tells, given that it has seen the same names. -/
lemma foldl_declare (a : Analyzer) (fs : List Function) {seen : List String}
    (hseen : ∀ n, n ∈ a.info.functions ↔ n ∈ seen) :
    fs.foldl declare a = ((fs.map (·.name)).foldl know a).found (checkNames seen fs) := by
  induction fs generalizing a seen with
  | nil => exact a.found_nil.symm
  | cons f fs ih =>
    have hnext : ∀ n, n ∈ (a.know f.name).info.functions ↔ n ∈ f.name :: seen := by
      intro n
      rw [know, NameSet.mem_insert, List.mem_cons, hseen]
    rw [List.foldl_cons, declare, checkNames, List.map_cons, List.foldl_cons]
    by_cases hf : f.name ∈ seen
    · have hreport : (a.know f.name).report (.functionRedefined f.name) f.span =
          (a.know f.name).found [⟨.functionRedefined f.name, f.span⟩] := rfl
      rw [if_pos ((hseen _).2 hf), if_pos hf, hreport, ih ((a.know f.name).found _) hnext,
        foldl_know_found, found_found]
      rfl
    · rw [if_neg (mt (hseen _).1 hf), if_neg hf, ih _ hnext]

/-- **The analyzer ends** with the names and the errors of the program. -/
theorem program_eq (p : Program) (libraries : NameSet) :
    (ofLibraries libraries).program p = ⟨p.file, p.info libraries, checkProgram p libraries⟩ := by
  have hseen : ∀ n, n ∈ NameSet.empty ↔ n ∈ ([] : List String) := fun n => .rfl
  rw [program, foldl_import_, foldl_declare _ _ hseen, foldl_know, foldl_function, found_found]
  rfl

/-- The errors that the analyzer collects are those of the check. -/
lemma collect_eq (p : Program) (libraries : NameSet) :
    collect p libraries = checkProgram p libraries := by
  rw [collect, program_eq]

end Analyzer

end Idyl
