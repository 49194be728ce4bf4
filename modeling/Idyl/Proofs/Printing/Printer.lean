import Idyl.Proofs.Bare
import Idyl.Proofs.Decimal.Exact

/-!
# Printing programs

A program tree is printed by spelling its tokens with blanks between them.  A tree has no
parentheses, so they are put where they are needed: around an operand whose operator binds more
loosely than its place allows, and around a variable that makes up a whole statement of a block,
which would otherwise look like a declaration with a misspelled type.

Not every tree can be printed and read back.  Those that can be are `Printable`.

## Main definitions

* `Idyl.Expr.rank`, `Idyl.Expr.tokens` — printing expressions.
* `Idyl.Stmt.tokens`, `Idyl.Function.tokens`, `Idyl.Program.tokens` — printing the other phrases.
* `Idyl.Program.print` — the text of a program.
* `Idyl.Program.Printable` — the trees that a text can have.
* `Idyl.Function.height` — the number of phrases on the longest path into a function.
-/

set_option autoImplicit false

namespace Idyl

/-! ## Expressions -/

/-- The token that names a type. -/
def Ty.token : Ty → TokenKind
  | int => .keyword .int | float => .keyword .float | bool => .keyword .bool
  | char => .keyword .char | string => .keyword .string | void => .keyword .void

/-- The token of a binary operator. -/
def BinaryOp.token : BinaryOp → TokenKind
  | add => .punct .plus | sub => .punct .minus | mul => .punct .star | div => .punct .slash
  | eq => .punct .eq | ne => .punct .ne | lt => .punct .lt | le => .punct .le
  | gt => .punct .gt | ge => .punct .ge | and => .keyword .and | or => .keyword .or

/-- The token of a unary operator. -/
def UnaryOp.token : UnaryOp → TokenKind
  | neg => .punct .minus
  | not => .keyword .not

/-- The token of a literal. -/
def Literal.token : Literal → TokenKind
  | int n => .integer (String.ofList (Nat.toDigits 10 n.toInt.toNat))
  | float x => .float x.exactText
  | bool true => .keyword .true
  | bool false => .keyword .false
  | string value => .string value
  | char value => .char value

/-- Tokens in parentheses, if need be. -/
def bracket (needed : Bool) (ks : List TokenKind) : List TokenKind :=
  if needed then .punct .lparen :: (ks ++ [.punct .rparen]) else ks

/-- How loosely an operator binds, from two for products to seven for `or`. -/
def BinaryOp.rank : BinaryOp → Nat
  | mul | div => 2
  | add | sub => 3
  | lt | le | gt | ge => 4
  | eq | ne => 5
  | and => 6
  | or => 7

namespace Expr

/-- How loosely the outermost operator of an expression binds: from zero for phrases that end
in themselves to eight for assignments. -/
def rank : Expr → Nat
  | lit .. | var .. | call .. | member .. => 0
  | unary .. => 1
  | binary op .. => op.rank
  | assign .. => 8

mutual

/-- The tokens of an expression. -/
def tokens : Expr → List TokenKind
  | lit value _ => [value.token]
  | var name _ => [.identifier name]
  | assign name value _ => .identifier name :: .punct .assign :: value.tokens
  | binary op left right _ =>
    bracket (op.rank < left.rank) left.tokens ++
      op.token :: bracket (op.rank ≤ right.rank) right.tokens
  | unary op operand _ => op.token :: bracket (1 < operand.rank) operand.tokens
  | call callee args _ =>
    -- the comma in front of the first argument is dropped
    bracket (0 < callee.rank) callee.tokens ++
      .punct .lparen :: ((commaTokens args).tail ++ [.punct .rparen])
  | member object name _ =>
    bracket (0 < object.rank) object.tokens ++ [.punct .dot, .identifier name]

/-- The tokens of expressions, each behind a comma. -/
def commaTokens : List Expr → List TokenKind
  | [] => []
  | e :: es => .punct .comma :: (e.tokens ++ commaTokens es)

end

end Expr

/-! ## Statements -/

/-- The tokens of a statement of a block.  A variable is put in parentheses. -/
def asItem (s : Stmt) (ks : List TokenKind) : List TokenKind :=
  match s with
  | .eval (.var name _) _ => bracket true [.identifier name] ++ [.punct .semi]
  | _ => ks

namespace Stmt

mutual

/-- The tokens of a statement. -/
def tokens : Stmt → List TokenKind
  | declare type name init _ =>
    type.token :: .identifier name :: .punct .assign :: (init.tokens ++ [.punct .semi])
  | eval e _ => e.tokens ++ [.punct .semi]
  | block body _ => .punct .lbrace :: (itemTokens body ++ [.punct .rbrace])
  | ifThen condition thenBranch _ =>
    .keyword .if_ :: .punct .lparen ::
      (condition.tokens ++ .punct .rparen :: thenBranch.tokens)
  | ifElse condition thenBranch elseBranch _ =>
    .keyword .if_ :: .punct .lparen ::
      (condition.tokens ++ .punct .rparen ::
        (thenBranch.tokens ++ .keyword .else_ :: elseBranch.tokens))
  | while_ condition body _ =>
    .keyword .while_ :: .punct .lparen :: (condition.tokens ++ .punct .rparen :: body.tokens)
  | return_ none _ => [.keyword .return_, .punct .semi]
  | return_ (some e) _ => .keyword .return_ :: (e.tokens ++ [.punct .semi])

/-- The tokens of the statements of a block. -/
def itemTokens : List Stmt → List TokenKind
  | [] => []
  | s :: ss => asItem s s.tokens ++ itemTokens ss

end

end Stmt

/-! ## Programs -/

/-- The tokens of a block. -/
def Block.tokens (b : Block) : List TokenKind :=
  .punct .lbrace :: (Stmt.itemTokens b.body ++ [.punct .rbrace])

/-- The tokens of a parameter. -/
def Param.tokens (p : Param) : List TokenKind := [p.type.token, .identifier p.name]

/-- The tokens of an import. -/
def Import.tokens (i : Import) : List TokenKind :=
  [.keyword .use, .identifier i.name, .punct .semi]

/-- The tokens of a function. -/
def Function.tokens (f : Function) : List TokenKind :=
  f.returns.token :: .keyword .function :: .identifier f.name :: .punct .lparen ::
    (f.params.flatMap Param.tokens ++ .punct .rparen :: f.body.tokens)

/-- The tokens of the function that a program starts with. -/
def Function.mainTokens (f : Function) : List TokenKind :=
  .keyword .main :: .punct .lparen :: .punct .rparen :: f.body.tokens

/-- The tokens of a program. -/
def Program.tokens (p : Program) : List TokenKind :=
  p.imports.flatMap Import.tokens ++
    (p.functions.flatMap Function.tokens ++ p.main.mainTokens)

/-- The text of a program. -/
def Program.print (p : Program) : String := render p.tokens

/-! ## Trees that can be printed -/

/-- Whole numbers without a sign, and floating-point numbers that a decimal text denotes. -/
def Literal.Printable : Literal → Prop
  | int n => 0 ≤ n.toInt
  | float x => ∃ text : String, IsDecimal text.toList ∧ Binary64.ofText? text = some x
  | _ => True

mutual

/-- Names are identifiers, and there is no minus sign in front of an operand. -/
def Expr.Printable : Expr → Prop
  | .lit value _ => value.Printable
  | .var name _ => isIdentifier name = true
  | .assign name value _ => isIdentifier name = true ∧ value.Printable
  | .binary _ left right _ => left.Printable ∧ right.Printable
  | .unary op operand _ => op = .not ∧ operand.Printable
  | .call callee args _ => callee.Printable ∧ Expr.AllPrintable args
  | .member object name _ => object.Printable ∧ isIdentifier name = true

/-- Expressions that can be printed. -/
def Expr.AllPrintable : List Expr → Prop
  | [] => True
  | e :: es => e.Printable ∧ Expr.AllPrintable es

end

/-- What stands in a block: a declaration, of a type other than `void`, or a statement of which
`printable` says whether it can be printed. -/
def ItemPrintable (s : Stmt) (printable : Prop) : Prop :=
  match s with
  | .declare type name init _ => type ≠ .void ∧ isIdentifier name = true ∧ init.Printable
  | _ => printable

mutual

/-- Declarations stand in blocks only, and an `else` has one `if` it can belong to. -/
def Stmt.Printable : Stmt → Prop
  | .declare .. => False
  | .eval e _ => e.Printable
  | .block body _ => Stmt.ItemsPrintable body
  | .ifThen condition thenBranch _ => condition.Printable ∧ thenBranch.Printable
  | .ifElse condition thenBranch elseBranch _ =>
    condition.Printable ∧ thenBranch.Printable ∧ thenBranch.endsOpen = false ∧
      elseBranch.Printable
  | .while_ condition body _ => condition.Printable ∧ body.Printable
  | .return_ none _ => True
  | .return_ (some e) _ => e.Printable

/-- Declarations and statements of a block. -/
def Stmt.ItemsPrintable : List Stmt → Prop
  | [] => True
  | s :: ss => ItemPrintable s s.Printable ∧ Stmt.ItemsPrintable ss

end

/-- Functions have at most one parameter and do not return `char`. -/
structure Function.Printable (f : Function) : Prop where
  name : isIdentifier f.name = true
  returns : f.returns ≠ .char
  count : f.params.length ≤ 1
  params : ∀ p ∈ f.params, isIdentifier p.name = true
  body : Stmt.ItemsPrintable f.body.body

/-- The function that a program starts with is called `main` and has neither parameters nor a
result. -/
structure Function.MainPrintable (f : Function) : Prop where
  name : f.name = "main"
  returns : f.returns = .void
  params : f.params = []
  body : Stmt.ItemsPrintable f.body.body

/-- Programs that can be printed. -/
structure Program.Printable (p : Program) : Prop where
  imports : ∀ i ∈ p.imports, isIdentifier i.name = true
  functions : ∀ f ∈ p.functions, f.Printable
  main : p.main.MainPrintable

/-! ## Height -/

mutual

/-- The number of phrases on the longest path into an expression. -/
def Expr.height : Expr → Nat
  | .lit .. | .var .. => 1
  | .assign _ value _ => value.height + 1
  | .binary _ left right _ => max left.height right.height + 1
  | .unary _ operand _ => operand.height + 1
  | .call callee args _ => max callee.height (Expr.heightAll args) + 1
  | .member object _ _ => object.height + 1

/-- The number of phrases on the longest path into expressions. -/
def Expr.heightAll : List Expr → Nat
  | [] => 0
  | e :: es => max e.height (Expr.heightAll es)

end

mutual

/-- The number of phrases on the longest path into a statement. -/
def Stmt.height : Stmt → Nat
  | .declare _ _ init _ => init.height + 1
  | .eval e _ => e.height + 1
  | .block body _ => Stmt.heightAll body + 1
  | .ifThen condition thenBranch _ => max condition.height thenBranch.height + 1
  | .ifElse condition thenBranch elseBranch _ =>
    max condition.height (max thenBranch.height elseBranch.height) + 1
  | .while_ condition body _ => max condition.height body.height + 1
  | .return_ none _ => 1
  | .return_ (some e) _ => e.height + 1

/-- The number of phrases on the longest path into statements. -/
def Stmt.heightAll : List Stmt → Nat
  | [] => 0
  | s :: ss => max s.height (Stmt.heightAll ss)

end

/-- The number of phrases on the longest path into the body of a function. -/
def Function.height (f : Function) : Nat := Stmt.heightAll f.body.body

end Idyl
