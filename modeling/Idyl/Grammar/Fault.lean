import Idyl.CompileError
import Idyl.Suggestion
import Idyl.Token
import Idyl.Tree

/-!
# Faults of grammar

Reading a program stops at the first token that the grammar does not allow.  The fault says
what was expected there, or which rule of the grammar the tokens break.

## Main definitions

* `Idyl.SyntaxFault` — what is wrong with the tokens.
* `Idyl.SyntaxFault.message` — its wording.
-/

set_option autoImplicit false

namespace Idyl

/-- The phrases whose nesting is limited. -/
inductive Nesting where
  | statement | expression
deriving DecidableEq

/-- The name of a kind of phrase. -/
def Nesting.name : Nesting → String
  | statement => "statement"
  | expression => "expression"

/-- What is wrong with a list of tokens. -/
inductive SyntaxFault where
  /-- Something else than the token found was expected. -/
  | expected (what : String) (found : TokenKind)
  /-- A library holds something else than functions and imports. -/
  | notInLibrary (found : TokenKind)
  /-- A name stands where a type is needed. -/
  | unknownType (name : String)
  /-- A function has a second parameter. -/
  | secondParameter (function : String)
  /-- A variable is declared `void`. -/
  | voidVariable (name : String)
  /-- Phrases are nested too deeply. -/
  | tooDeep (what : Nesting)
  /-- Something else than a variable stands left of an assignment. -/
  | notAssignable (form : Expr.Form)
  /-- A whole number does not fit in 64 bits. -/
  | integerTooLarge (text : String)
  /-- The text of a decimal number is none. -/
  | invalidFloat (text : String)
deriving DecidableEq

/-- The wording of a fault. -/
def SyntaxFault.message : SyntaxFault → String
  | expected what found => s!"expected {what}, found {found.shown}"
  | notInLibrary found =>
    s!"only functions and 'use' directives are allowed in a library, found {found.shown}"
  | unknownType name =>
    match closestType? name with
    | some type => s!"unknown type '{name}'. Did you mean '{type.name}'?"
    | none => s!"unknown type '{name}'"
  | secondParameter function => s!"function '{function}' may declare at most one parameter"
  | voidVariable name => s!"variable '{name}' cannot have type 'void'"
  | tooDeep what => s!"{what.name} nested too deeply"
  | notAssignable form => s!"invalid assignment target: cannot assign to {form.name}"
  | integerTooLarge text => s!"integer literal '{text}' is too large"
  | invalidFloat text => s!"invalid float literal '{text}'"

/-- A fault of grammar in its place. -/
abbrev SyntaxError := Located SyntaxFault

/-- The error that a fault of grammar is reported as. -/
def SyntaxError.report (e : SyntaxError) : CompileError := e.toError .parsing SyntaxFault.message

end Idyl
