import Idyl.CompileError
import Idyl.Tree

/-!
# Faults of meaning

A program of the right form may still use names that are not declared, or values where they do
not fit.  Each such fault is one of the causes listed here.

## Main definitions

* `Idyl.SemanticFault` — what is wrong.
* `Idyl.SemanticFault.message` — its wording.
* `Idyl.Finding` — a fault and the phrase at fault.
-/

set_option autoImplicit false

namespace Idyl

/-- What is wrong with a phrase. -/
inductive SemanticFault where
  /-- A second function has the name. -/
  | functionRedefined (name : String)
  /-- A second parameter has the name. -/
  | parameterRedeclared (name : String)
  /-- No variable can have the name. -/
  | reservedName (name : String)
  /-- A second variable has the name. -/
  | variableRedeclared (name : String)
  /-- No variable has the name. -/
  | notDeclared (name : String)
  /-- A value does not fit the variable. -/
  | mismatch (value : Ty) (name : String) (target : Ty)
  /-- An operand of arithmetic is no number. -/
  | notNumbers (op : BinaryOp) (left right : Option Ty)
  /-- The operand of a minus sign is no number. -/
  | negatedNoNumber
  /-- The operand of `not` is no truth value. -/
  | negatedNoBool
  /-- A member of a value is called. -/
  | memberCalled (name : String)
  /-- Something else than a function is called. -/
  | notCallable
  /-- The console has no method of the name. -/
  | unknownMethod (module method : String)
  /-- A method without parameters gets arguments. -/
  | takesNone (module method : String) (given : Nat)
  /-- A conversion gets more or less than one argument. -/
  | takesOne (function : String) (given : Nat)
  /-- There is no module of the name. -/
  | unknownModule (name : String)
  /-- There is no function of the name. -/
  | unknownFunction (name : String)
deriving DecidableEq

/-- How messages name the type of an operand, which may have none. -/
def operandShown : Option Ty → String
  | some t => s!"'{t.name}'"
  | none => "an untyped value"

/-- The wording of a fault. -/
def SemanticFault.message : SemanticFault → String
  | functionRedefined name => s!"function '{name}' is already defined"
  | parameterRedeclared name => s!"parameter '{name}' is already declared"
  | reservedName name => s!"cannot use '{name}' as a variable name"
  | variableRedeclared name => s!"variable '{name}' is already declared"
  | notDeclared name => s!"variable '{name}' is not declared"
  | mismatch value name target =>
    s!"cannot assign a value of type '{value.name}' to variable '{name}' of type '{target.name}'"
  | notNumbers op left right =>
    s!"operator '{op.text}' requires numeric operands, found {operandShown left} and " ++
      operandShown right
  | negatedNoNumber => "unary '-' requires a numeric operand"
  | negatedNoBool => "operator 'not' requires a bool operand"
  | memberCalled name => s!"invalid call: '.{name}' is not a module function"
  | notCallable => "invalid call: expression is not a function name"
  | unknownMethod module method => s!"unknown method '{module}.{method}'"
  | takesNone module method given =>
    s!"{module}.{method}() takes no arguments, but {given} were given"
  | takesOne function given =>
    s!"{function}() takes exactly one argument, but {given} were given"
  | unknownModule name => s!"unknown module '{name}'"
  | unknownFunction name => s!"unknown function '{name}'"

/-- A fault and the text of the phrase at fault. -/
structure Finding where
  fault : SemanticFault
  span : Span
deriving DecidableEq

/-- A fault of meaning in its place. -/
abbrev SemanticError := Located SemanticFault

/-- The error that a fault of meaning is reported as. -/
def SemanticError.report (e : SemanticError) : CompileError :=
  e.toError .checking SemanticFault.message

/-- A fault placed in a file. -/
def Finding.inFile (f : Finding) (file : String) : SemanticError := ⟨f.fault, file, f.span⟩

end Idyl
