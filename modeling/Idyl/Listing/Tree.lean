import Idyl.Decimal.Shortest
import Idyl.Listing.Outline
import Idyl.Text.Quoted
import Idyl.Tree

/-!
# Outlines of program trees

The outline of a tree names the form of every phrase and shows its parts and its span.

## Main definitions

* `Idyl.Program.outline`, `Idyl.Function.outline`, `Idyl.Stmt.outline`, `Idyl.Expr.outline`.
-/

set_option autoImplicit false

namespace Idyl

open Outline

/-- A text in quotes. -/
def textOutline (s : String) : Outline := atom (Quoted.text s)

/-- The outline of a span. -/
def Span.outline (s : Span) : Outline :=
  record "Span"
    [field "start" (atom (toString s.start)), field "end" (atom (toString s.stop)),
     field "line" (atom (toString s.line)), field "column" (atom (toString s.column))]

/-- A part that may be missing. -/
def optionOutline : Option Outline → Outline
  | some o => wrap "Some" o
  | none => atom "None"

/-- The outline of a type. -/
def Ty.outline : Ty → Outline
  | int => atom "Int" | float => atom "Float" | bool => atom "Bool"
  | char => atom "Char" | string => atom "Str" | void => atom "Void"

/-- The outline of a literal. -/
def Literal.outline : Literal → Outline
  | int n => wrap "Int" (atom (toString n.toInt))
  | float x => wrap "Float" (atom x.shown)
  | bool b => wrap "Bool" (atom (if b then "true" else "false"))
  | string s => wrap "Str" (textOutline s)
  | char c => wrap "Char" (atom (Quoted.char c))

/-- The outline of a binary operator. -/
def BinaryOp.outline : BinaryOp → Outline
  | add => atom "Add" | sub => atom "Sub" | mul => atom "Mul" | div => atom "Div"
  | eq => atom "Eq" | ne => atom "Ne" | lt => atom "Lt" | le => atom "Le"
  | gt => atom "Gt" | ge => atom "Ge" | and => atom "And" | or => atom "Or"

/-- The outline of a unary operator. -/
def UnaryOp.outline : UnaryOp → Outline
  | neg => atom "Neg"
  | not => atom "Not"

/-- A phrase by its form and its span. -/
def phraseOutline (name : String) (form : Outline) (span : Span) : Outline :=
  record name [field "kind" form, field "span" span.outline]

mutual

/-- The outline of an expression. -/
def Expr.outline : Expr → Outline
  | .lit value span => phraseOutline "Expr" (wrap "Literal" value.outline) span
  | .var name span => phraseOutline "Expr" (wrap "Variable" (textOutline name)) span
  | .assign name value span =>
    phraseOutline "Expr"
      (record "Assign" [field "name" (textOutline name), field "value" value.outline]) span
  | .binary op left right span =>
    phraseOutline "Expr"
      (record "Binary"
        [field "left" left.outline, field "op" op.outline, field "right" right.outline]) span
  | .unary op operand span =>
    phraseOutline "Expr"
      (record "Unary" [field "op" op.outline, field "operand" operand.outline]) span
  | .call callee args span =>
    phraseOutline "Expr"
      (record "Call" [field "callee" callee.outline, field "args" (list (exprOutlines args))]) span
  | .member object name span =>
    phraseOutline "Expr"
      (record "Get" [field "object" object.outline, field "name" (textOutline name)]) span

/-- The outlines of expressions. -/
def exprOutlines : List Expr → List Outline
  | [] => []
  | e :: es => e.outline :: exprOutlines es

end

/-- The outline of statements in braces, from the outlines of the statements. -/
def blockOutline (body : List Outline) (span : Span) : Outline :=
  record "Block" [field "statements" (list body), field "span" span.outline]

/-- The outline of a condition and what depends on it. -/
def ifOutline (condition thenBranch : Outline) (elseBranch : Option Outline) : Outline :=
  record "If"
    [field "condition" condition, field "then_branch" thenBranch,
     field "else_branch" (optionOutline elseBranch)]

mutual

/-- The outline of a statement. -/
def Stmt.outline : Stmt → Outline
  | .declare type name init span =>
    phraseOutline "Stmt"
      (wrap "VarDecl"
        (record "VarDecl"
          [field "ty" type.outline, field "name" (textOutline name), field "init" init.outline,
           field "span" span.outline])) span
  | .eval e span => phraseOutline "Stmt" (wrap "Expr" e.outline) span
  | .block body span =>
    phraseOutline "Stmt" (wrap "Block" (blockOutline (stmtOutlines body) span)) span
  | .ifThen condition thenBranch span =>
    phraseOutline "Stmt" (ifOutline condition.outline thenBranch.outline none) span
  | .ifElse condition thenBranch elseBranch span =>
    phraseOutline "Stmt"
      (ifOutline condition.outline thenBranch.outline (some elseBranch.outline)) span
  | .while_ condition body span =>
    phraseOutline "Stmt"
      (record "While" [field "condition" condition.outline, field "body" body.outline]) span
  | .return_ value span =>
    phraseOutline "Stmt" (wrap "Return" (optionOutline (value.map Expr.outline))) span

/-- The outlines of statements. -/
def stmtOutlines : List Stmt → List Outline
  | [] => []
  | s :: ss => s.outline :: stmtOutlines ss

end

/-- The outline of a parameter. -/
def Param.outline (p : Param) : Outline :=
  record "Param"
    [field "ty" p.type.outline, field "name" (textOutline p.name), field "span" p.span.outline]

/-- The outline of a function. -/
def Function.outline (f : Function) : Outline :=
  record "FunctionDecl"
    [field "name" (textOutline f.name), field "return_type" f.returns.outline,
     field "params" (list (f.params.map Param.outline)),
     field "body" (blockOutline (stmtOutlines f.body.body) f.body.span),
     field "span" f.span.outline]

/-- The outline of an import. -/
def Import.outline (u : Import) : Outline :=
  record "UseDecl" [field "module" (textOutline u.name), field "span" u.span.outline]

/-- The outline of a program. -/
def Program.outline (p : Program) : Outline :=
  record "Program"
    [field "imports" (list (p.imports.map Import.outline)),
     field "functions" (list (p.functions.map Function.outline)),
     field "main" p.main.outline, field "file" (textOutline p.file)]

end Idyl
