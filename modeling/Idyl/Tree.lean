import Idyl.Literal
import Idyl.Span

/-!
# Program trees

A program is a list of imports, a list of functions and the function `main`.  Every phrase
keeps the span of the text it was read from, from its first token to its last.

Parentheses leave no trace in a tree: a phrase in parentheses is the phrase itself.  A minus
sign in front of a phrase is a subtraction from zero.

## Main definitions

* `Idyl.BinaryOp`, `Idyl.UnaryOp`, `Idyl.Expr` — expressions.
* `Idyl.Stmt`, `Idyl.Block` — statements.
* `Idyl.Function`, `Idyl.Import`, `Idyl.Program` — declarations.
-/

set_option autoImplicit false

namespace Idyl

/-! ## Expressions -/

/-- Operators between two operands. -/
inductive BinaryOp where
  | add | sub | mul | div
  | eq | ne | lt | le | gt | ge
  | and | or
deriving DecidableEq

namespace BinaryOp

/-- The spelling of an operator. -/
def text : BinaryOp → String
  | add => "+" | sub => "-" | mul => "*" | div => "/"
  | eq => "==" | ne => "!=" | lt => "<" | le => "<=" | gt => ">" | ge => ">="
  | and => "and" | or => "or"

/-- All binary operators. -/
def all : List BinaryOp := [add, sub, mul, div, eq, ne, lt, le, gt, ge, and, or]

/-- Whether the operator computes a number from numbers. -/
def isArithmetic : BinaryOp → Bool
  | add | sub | mul | div => true
  | _ => false

/-- Whether the operator compares its operands. -/
def isComparison : BinaryOp → Bool
  | eq | ne | lt | le | gt | ge => true
  | _ => false

/-- How loosely the operator binds, from one for products to six for `or`. -/
def level : BinaryOp → Nat
  | mul | div => 1
  | add | sub => 2
  | lt | le | gt | ge => 3
  | eq | ne => 4
  | and => 5
  | or => 6

/-- The loosest level of binary operators. -/
def loosest : Nat := 6

end BinaryOp

/-- Operators in front of one operand. -/
inductive UnaryOp where
  | neg | not
deriving DecidableEq

/-- The spelling of a unary operator. -/
def UnaryOp.text : UnaryOp → String
  | neg => "-"
  | not => "not"

/-- Expressions. -/
inductive Expr where
  | lit (value : Literal) (span : Span)
  | var (name : String) (span : Span)
  | assign (name : String) (value : Expr) (span : Span)
  | binary (op : BinaryOp) (left right : Expr) (span : Span)
  | unary (op : UnaryOp) (operand : Expr) (span : Span)
  | call (callee : Expr) (args : List Expr) (span : Span)
  | member (object : Expr) (name : String) (span : Span)

namespace Expr

/-- The text an expression was read from. -/
def span : Expr → Span
  | lit _ s | var _ s | assign _ _ s | binary _ _ _ s | unary _ _ s | call _ _ s
  | member _ _ s => s

/-- Two operands joined by an operator. -/
def join (op : BinaryOp) (left right : Expr) : Expr :=
  binary op left right (left.span.merge right.span)

/-- The forms of expressions, as messages tell them apart. -/
inductive Form where
  | lit | var | assign | binary | unary | call | member
deriving DecidableEq

/-- The form of an expression. -/
def form : Expr → Form
  | lit .. => .lit
  | var .. => .var
  | assign .. => .assign
  | binary .. => .binary
  | unary .. => .unary
  | call .. => .call
  | member .. => .member

/-- The name of a form of expressions. -/
def Form.name : Form → String
  | lit => "a literal"
  | var => "a variable"
  | assign => "an assignment"
  | binary => "a binary expression"
  | unary => "a unary expression"
  | call => "a function call"
  | member => "a member access"

end Expr

/-! ## Statements -/

/-- Statements. -/
inductive Stmt where
  | declare (type : Ty) (name : String) (init : Expr) (span : Span)
  | eval (expr : Expr) (span : Span)
  | block (body : List Stmt) (span : Span)
  | ifThen (condition : Expr) (thenBranch : Stmt) (span : Span)
  | ifElse (condition : Expr) (thenBranch elseBranch : Stmt) (span : Span)
  | while_ (condition : Expr) (body : Stmt) (span : Span)
  | return_ (value : Option Expr) (span : Span)

/-- The text a statement was read from. -/
def Stmt.span : Stmt → Span
  | declare _ _ _ s | eval _ s | block _ s | ifThen _ _ s | ifElse _ _ _ s | while_ _ _ s
  | return_ _ s => s

/-- Statements in braces. -/
structure Block where
  body : List Stmt
  span : Span

/-! ## Declarations -/

/-- A parameter of a function. -/
structure Param where
  type : Ty
  name : String
  span : Span
deriving DecidableEq

/-- A function. -/
structure Function where
  name : String
  returns : Ty
  params : List Param
  body : Block
  span : Span

/-- The import of a module. -/
structure Import where
  name : String
  span : Span
deriving DecidableEq

/-- A program: what it imports, its functions, and the one it starts with. -/
structure Program where
  imports : List Import
  functions : List Function
  main : Function
  file : String

/-- The functions of a program in the order in which they are checked, `main` last. -/
def Program.allFunctions (p : Program) : List Function := p.functions ++ [p.main]

end Idyl
