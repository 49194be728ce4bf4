import Idyl.Builtin
import Idyl.NameSet
import Idyl.Scope
import Idyl.Typing.Fault

/-!
# Checking programs

Checking walks over a program and lists every fault in the order in which the phrases stand.  An
expression has a type, or none if its type cannot be told; checking goes on in either case, so
one fault does not hide the next.

Signatures of the user's own functions and libraries are not known to the check: calls of them
are accepted with any arguments and give `void`.

## Main definitions

* `Idyl.Ty.accepts`, `Idyl.arithmeticType` — the typing rules for values and for arithmetic.
* `Idyl.Globals` — the functions and libraries that can be called.
* `Idyl.checkExpr`, `Idyl.checkStmt`, `Idyl.checkFunction` — checking phrases.
* `Idyl.ProgramInfo`, `Idyl.checkProgram` — checking programs.

## Main results

* `Idyl.checkExpr_call_member`, `Idyl.checkExpr_call_other` — calls of what is no function.
-/

set_option autoImplicit false

namespace Idyl

/-! ## Typing rules -/

/-- Whether a variable of the first type can hold a value of the second: the types are equal,
or a whole number is widened to `float`. -/
def Ty.accepts (target value : Ty) : Bool :=
  target = value || (target = .float && value = .int)

/-- Whether an operand is known to be a number. -/
def isNumber (t : Option Ty) : Bool := t.any Ty.isNumeric

/-- The type of a sum, difference, product or quotient: `float` if one of two numbers is, and
else `int`.  If an operand is no number, the type of the left one is kept. -/
def arithmeticType (left right : Option Ty) : Option Ty :=
  match left, right with
  | some l, some r =>
    if l.isNumeric && r.isNumeric then
      some (if l = .float || r = .float then .float else .int)
    else left
  | _, _ => left

/-! ## Expressions -/

/-- What can be called from anywhere in a program. -/
structure Globals where
  functions : NameSet
  libraries : NameSet

/-- What checking an expression gives: its type, if it can be told, and the faults found. -/
structure Typed where
  type : Option Ty
  findings : List Finding
deriving DecidableEq

/-- A call of a method of a module. -/
def checkMethod (g : Globals) (module method : String) (count : Nat) (span : Span) : Typed :=
  if module = consoleModule then
    match ConsoleMethod.ofName? method with
    | none => ⟨none, [⟨.unknownMethod module method, span⟩]⟩
    | some m =>
      let surplus := m.arity?.any (· ≠ count)
      ⟨some m.returns, if surplus then [⟨.takesNone module m.name count, span⟩] else []⟩
  else if module ∈ g.libraries then ⟨some .void, []⟩
  else ⟨none, [⟨.unknownModule module, span⟩]⟩

/-- A call of a function by its name. -/
def checkNamed (g : Globals) (function : String) (count : Nat) (span : Span) : Typed :=
  match Conversion.ofName? function with
  | some c =>
    if count = 1 then ⟨some c.returns, []⟩ else ⟨none, [⟨.takesOne c.name count, span⟩]⟩
  | none =>
    if function ∈ g.functions then ⟨some .void, []⟩
    else ⟨none, [⟨.unknownFunction function, span⟩]⟩

/-- The value of an assignment, against the type of its target. -/
def checkFits (target : Ty) (name : String) (value : Option Ty) (span : Span) : List Finding :=
  match value with
  | some v => if target.accepts v then [] else [⟨.mismatch v name target, span⟩]
  | none => []

/-- A binary operator on operands of the given types. -/
def checkBinary (op : BinaryOp) (left right : Option Ty) (span : Span) : Typed :=
  if op.isComparison then ⟨some .bool, []⟩
  else if op.isArithmetic then
    ⟨arithmeticType left right,
      if isNumber left && isNumber right then [] else [⟨.notNumbers op left right, span⟩]⟩
  else ⟨left, []⟩

/-- A unary operator on an operand of the given type. -/
def checkUnary (op : UnaryOp) (operand : Option Ty) (span : Span) : List Finding :=
  match op with
  | .neg => if isNumber operand then [] else [⟨.negatedNoNumber, span⟩]
  | .not => if operand = some .bool then [] else [⟨.negatedNoBool, span⟩]

mutual

/-- Checks an expression.  A string has a length; all other members are unknown.  What is
called must be the name of a function or a member of a module. -/
def checkExpr (g : Globals) (scope : Scope) : Expr → Typed
  | .lit value _ => ⟨some value.type, []⟩
  | .var name span =>
    match scope.typeOf? name with
    | some t => ⟨some t, []⟩
    | none => ⟨none, [⟨.notDeclared name, span⟩]⟩
  | .assign name value span =>
    let v := checkExpr g scope value
    match scope.typeOf? name with
    | some t => ⟨some t, v.findings ++ checkFits t name v.type value.span⟩
    | none => ⟨none, ⟨.notDeclared name, span⟩ :: v.findings⟩
  | .binary op left right span =>
    let l := checkExpr g scope left
    let r := checkExpr g scope right
    let result := checkBinary op l.type r.type span
    ⟨result.type, l.findings ++ r.findings ++ result.findings⟩
  | .unary op operand span =>
    let e := checkExpr g scope operand
    ⟨e.type, e.findings ++ checkUnary op e.type span⟩
  | .call (.member (.var module _) method _) args span =>
    let result := checkMethod g module method args.length span
    ⟨result.type, checkArgs g scope args ++ result.findings⟩
  | .call (.member object name _) args span =>
    ⟨none, (checkExpr g scope object).findings ++ checkArgs g scope args ++
      [⟨.memberCalled name, span⟩]⟩
  | .call (.var function _) args span =>
    let result := checkNamed g function args.length span
    ⟨result.type, checkArgs g scope args ++ result.findings⟩
  | .call _ args span => ⟨none, checkArgs g scope args ++ [⟨.notCallable, span⟩]⟩
  | .member object name _ =>
    let o := checkExpr g scope object
    ⟨if o.type = some .string && name = "length" then some .int else none, o.findings⟩

/-- Checks the arguments of a call. -/
def checkArgs (g : Globals) (scope : Scope) : List Expr → List Finding
  | [] => []
  | e :: es => (checkExpr g scope e).findings ++ checkArgs g scope es

end

/-- An expression of the form of a variable is one. -/
theorem Expr.exists_of_form_eq_var {e : Expr} (h : e.form = .var) :
    ∃ name s, e = .var name s := by
  cases e with
  | var name s => exact ⟨name, s, rfl⟩
  | _ => contradiction

/-- A member of anything but a module cannot be called. -/
theorem checkExpr_call_member (g : Globals) (scope : Scope) {object : Expr}
    (h : object.form ≠ .var) (name : String) (args : List Expr) (s s' : Span) :
    checkExpr g scope (.call (.member object name s) args s') =
      ⟨none, (checkExpr g scope object).findings ++ checkArgs g scope args ++
        [⟨.memberCalled name, s'⟩]⟩ := by
  cases object with
  | var module s => exact absurd rfl h
  | _ => simp only [checkExpr]

/-- What is neither a name nor a member cannot be called, and is not looked into. -/
theorem checkExpr_call_other (g : Globals) (scope : Scope) {callee : Expr}
    (hvar : callee.form ≠ .var) (hmember : callee.form ≠ .member) (args : List Expr) (s : Span) :
    checkExpr g scope (.call callee args s) =
      ⟨none, checkArgs g scope args ++ [⟨.notCallable, s⟩]⟩ := by
  cases callee with
  | var name s => exact absurd rfl hvar
  | member object name s => exact absurd rfl hmember
  | _ => simp only [checkExpr]

/-! ## Statements -/

/-- What checking a statement gives: the variables known after it, and the faults found. -/
structure Walked where
  scope : Scope
  findings : List Finding

/-- Checks the declaration of a variable.  The variable is known afterwards only if nothing is
wrong with its declaration, and if the type of its first value can be told. -/
def checkDeclare (g : Globals) (scope : Scope) (type : Ty) (name : String) (init : Expr)
    (span : Span) : Walked :=
  let value := checkExpr g scope init
  if isReserved name then ⟨scope, ⟨.reservedName name, span⟩ :: value.findings⟩
  else if scope.contains name then ⟨scope, ⟨.variableRedeclared name, span⟩ :: value.findings⟩
  else
    match value.type with
    | none => ⟨scope, value.findings⟩
    | some v =>
      if type.accepts v then ⟨scope.bind ⟨name, type⟩, value.findings⟩
      else ⟨scope, value.findings ++ [⟨.mismatch v name type, init.span⟩]⟩

mutual

/-- Checks a statement. -/
def checkStmt (g : Globals) (scope : Scope) : Stmt → Walked
  | .declare type name init span => checkDeclare g scope type name init span
  | .eval e _ => ⟨scope, (checkExpr g scope e).findings⟩
  | .block body _ => checkStmts g scope body
  | .ifThen condition thenBranch _ =>
    let c := (checkExpr g scope condition).findings
    let t := checkStmt g scope thenBranch
    ⟨t.scope, c ++ t.findings⟩
  | .ifElse condition thenBranch elseBranch _ =>
    let c := (checkExpr g scope condition).findings
    let t := checkStmt g scope thenBranch
    let e := checkStmt g t.scope elseBranch
    ⟨e.scope, c ++ t.findings ++ e.findings⟩
  | .while_ condition body _ =>
    let c := (checkExpr g scope condition).findings
    let b := checkStmt g scope body
    ⟨b.scope, c ++ b.findings⟩
  | .return_ (some e) _ => ⟨scope, (checkExpr g scope e).findings⟩
  | .return_ none _ => ⟨scope, []⟩

/-- Checks statements one after the other. -/
def checkStmts (g : Globals) (scope : Scope) : List Stmt → Walked
  | [] => ⟨scope, []⟩
  | s :: ss =>
    let first := checkStmt g scope s
    let others := checkStmts g first.scope ss
    ⟨others.scope, first.findings ++ others.findings⟩

end

/-! ## Functions and programs -/

/-- Checks the parameters of a function, which are its first variables. -/
def checkParams (scope : Scope) : List Param → Walked
  | [] => ⟨scope, []⟩
  | p :: ps =>
    match scope.define ⟨p.name, p.type⟩ with
    | .ok scope => checkParams scope ps
    | .error _ =>
      let others := checkParams scope ps
      ⟨others.scope, ⟨.parameterRedeclared p.name, p.span⟩ :: others.findings⟩

/-- The faults in a function. -/
def checkFunction (g : Globals) (f : Function) : List Finding :=
  let params := checkParams {} f.params
  params.findings ++ (checkStmts g params.scope f.body.body).findings

/-- The functions whose name an earlier one has, given the names before them. -/
def checkNames (seen : List String) : List Function → List Finding
  | [] => []
  | f :: fs =>
    let others := checkNames (f.name :: seen) fs
    if f.name ∈ seen then ⟨.functionRedefined f.name, f.span⟩ :: others else others

/-- What a program is known by: the modules it imports, its functions, and the libraries that
it was checked with. -/
structure ProgramInfo where
  imports : NameSet
  functions : NameSet
  libraries : NameSet

/-- The names of a program. -/
def Program.info (p : Program) (libraries : NameSet) : ProgramInfo where
  imports := .ofList (p.imports.map (·.name))
  functions := .ofList (p.functions.map (·.name))
  libraries := libraries

/-- What can be called from anywhere in a program. -/
def ProgramInfo.globals (info : ProgramInfo) : Globals := ⟨info.functions, info.libraries⟩

/-- The faults in a program: first the names of its functions, then what the functions hold. -/
def findings (p : Program) (libraries : NameSet) : List Finding :=
  checkNames [] p.functions ++ p.allFunctions.flatMap (checkFunction (p.info libraries).globals)

/-- The errors in a program, in the order of the phrases at fault. -/
def checkProgram (p : Program) (libraries : NameSet) : List SemanticError :=
  (findings p libraries).map (·.inFile p.file)

end Idyl
