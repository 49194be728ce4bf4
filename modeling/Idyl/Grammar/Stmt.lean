import Idyl.Grammar.Expr

/-!
# Grammar of statements

A block holds declarations and statements.  Everywhere else, after `if`, `else` and `while`, a
single statement is read, so a declaration needs a block around it.

Inside a block, a name followed by another name or by a semicolon is taken for a declaration
whose type is misspelled.

## Main definitions

* `Idyl.typeRule`, `Idyl.declarationRule` — types and declarations of variables.
* `Idyl.blockRule`, `Idyl.statementFormRule` — over rules for expressions and statements.
* `Idyl.statementRule` — statements at a given depth.
* `Idyl.bodyRule` — the body of a function.
-/

set_option autoImplicit false

namespace Idyl

open Rule

/-- The type that a token names. -/
def tyOfKind? : TokenKind → Option Ty
  | .keyword .int => some .int
  | .keyword .float => some .float
  | .keyword .bool => some .bool
  | .keyword .char => some .char
  | .keyword .string => some .string
  | .keyword .void => some .void
  | _ => none

/-- Reads the name of a type.  Another name in its place is taken for a misspelled one. -/
def typeRule : Rule (Ty × Token)
  | [] => expected "type name" []
  | t :: rest =>
    match tyOfKind? t.kind with
    | some type => .ok (type, t) rest
    | none =>
      match t.kind with
      | .identifier n => fault (.unknownType n) (t :: rest)
      | _ => expected "type name" (t :: rest)

/-- Reads the declaration of a variable.  Without a value it gets the default of its type, at
the place of its name. -/
def declarationRule (expression : Rule Expr) : Rule Stmt := do
  let (type, start) ← typeRule
  let (n, span) ← name "variable name"
  match type.default? with
  | none => faultAt start (.voidVariable n)
  | some value =>
    let init ←
      if (← next) = .punct .assign then do
        let _ ← mark .assign ""
        expression
      else pure (.lit value span)
    let semi ← mark .semi "after variable declaration"
    pure (.declare type n init (start.span.merge semi.span))

/-- The name that tokens start with, if they look like a declaration of a misspelled type. -/
def misspelledType? : List Token → Option String
  | t :: u :: _ =>
    match t.kind, u.kind with
    | .identifier n, .identifier _ => some n
    | .identifier n, .punct .semi => some n
    | _, _ => none
  | _ => none

/-- Reads what may stand in a block: a declaration or a statement. -/
def itemRule (expression : Rule Expr) (statement : Rule Stmt) : Rule Stmt := fun ts =>
  if (peek ts).isTypeName then declarationRule expression ts
  else
    match misspelledType? ts with
    | some n => fault (.unknownType n) ts
    | none => statement ts

/-- Whether a block goes on: neither its closing brace nor the end of the file is ahead. -/
def inBlock (ts : List Token) : Bool :=
  peek ts ≠ .punct .rbrace && peek ts ≠ .endOfFile

/-- Reads a block. -/
def blockRule (expression : Rule Expr) (statement : Rule Stmt) : Rule Block := do
  let opening ← mark .lbrace "to open a block"
  let body ← many inBlock (itemRule expression statement)
  let closing ← mark .rbrace "to close the block"
  pure ⟨body, opening.span.merge closing.span⟩

/-- Reads a condition in parentheses, behind the given word. -/
def conditionRule (expression : Rule Expr) (place : String) : Rule Expr := do
  let _ ← mark .lparen place
  let condition ← expression
  let _ ← mark .rparen "after condition"
  pure condition

/-- Reads a conditional statement.  An `else` belongs to the nearest `if`. -/
def ifRule (expression : Rule Expr) (statement : Rule Stmt) : Rule Stmt := do
  let start ← word .if_ ""
  let condition ← conditionRule expression "after 'if'"
  let thenBranch ← statement
  let span := start.span.merge thenBranch.span
  if (← next) = .keyword .else_ then
    let _ ← word .else_ ""
    let elseBranch ← statement
    pure (.ifElse condition thenBranch elseBranch (span.merge elseBranch.span))
  else pure (.ifThen condition thenBranch span)

/-- Reads a loop. -/
def whileRule (expression : Rule Expr) (statement : Rule Stmt) : Rule Stmt := do
  let start ← word .while_ ""
  let condition ← conditionRule expression "after 'while'"
  let body ← statement
  pure (.while_ condition body (start.span.merge body.span))

/-- Reads a return statement. -/
def returnRule (expression : Rule Expr) : Rule Stmt := do
  let start ← word .return_ ""
  let value ← if (← next) = .punct .semi then pure none else some <$> expression
  let semi ← mark .semi "after return"
  pure (.return_ value (start.span.merge semi.span))

/-- Reads an expression that is evaluated for its effect. -/
def evalRule (expression : Rule Expr) : Rule Stmt := do
  let e ← expression
  let semi ← mark .semi "after expression"
  pure (.eval e (e.span.merge semi.span))

/-- Reads a statement, over rules for the expressions and statements inside it. -/
def statementFormRule (expression : Rule Expr) (statement : Rule Stmt) : Rule Stmt := do
  match ← next with
  | .keyword .if_ => ifRule expression statement
  | .keyword .while_ => whileRule expression statement
  | .keyword .return_ => returnRule expression
  | .punct .lbrace =>
    let b ← blockRule expression statement
    pure (.block b.body b.span)
  | _ => evalRule expression

/-- Statements, with the given depth left. -/
def statementRule : Nat → Rule Stmt
  | 0, ts => fault (.tooDeep .statement) ts
  | depth + 1, ts =>
    statementFormRule (expressionRule (operandRule depth)) (statementRule depth) ts

/-- Reads the body of a function. -/
def bodyRule : Rule Block :=
  blockRule (expressionRule (operandRule maxDepth)) (statementRule maxDepth)

end Idyl
