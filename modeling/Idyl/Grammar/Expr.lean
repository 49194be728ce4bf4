import Idyl.Grammar.Rule

/-!
# Grammar of expressions

An assignment is the loosest expression and groups to the right.  Below it stand six levels of
binary operators, all grouping to the left, then prefix operators, then calls and member
accesses, and last the expressions that stand for themselves.

Operands and parentheses may be nested `maxDepth` deep.  Rules for nested phrases count down
the depth that is left; the rules around them are written once, over the rules for the phrases
they contain.

## Main definitions

* `Idyl.maxDepth` — the limit.
* `Idyl.binaryRule`, `Idyl.assignmentRule`, `Idyl.expressionRule` — expressions over a rule for
  operands.
* `Idyl.operandRule` — operands at a given depth.
-/

set_option autoImplicit false

namespace Idyl

open Rule

/-- Statements and operands may be nested this deep. -/
def maxDepth : Nat := 128

/-! ## Binary operators and assignments -/

/-- The binary operator that a token stands for. -/
def binaryOp? : TokenKind → Option BinaryOp
  | .punct .plus => some .add
  | .punct .minus => some .sub
  | .punct .star => some .mul
  | .punct .slash => some .div
  | .punct .eq => some .eq
  | .punct .ne => some .ne
  | .punct .lt => some .lt
  | .punct .le => some .le
  | .punct .gt => some .gt
  | .punct .ge => some .ge
  | .keyword .and => some .and
  | .keyword .or => some .or
  | _ => none

/-- Takes an operator of the given level and the operand to its right. -/
def joinStep (level : Nat) (operand : Rule Expr) (left : Expr) (kind : TokenKind) :
    Option (Rule Expr) :=
  match binaryOp? kind with
  | none => none
  | some op =>
    if op.level = level then
      some do
        let _ ← token kind ""
        let right ← operand
        pure (Expr.join op left right)
    else none

/-- Expressions whose operators have at most the given level, over a rule for operands. -/
def binaryRule (operand : Rule Expr) : Nat → Rule Expr
  | 0 => operand
  | level + 1 => do
    let left ← binaryRule operand level
    iterate (joinStep (level + 1) (binaryRule operand level)) left

/-- Assignments over a rule for the expressions between `=` signs, in at most as many rounds as
`rounds` has entries. -/
def assignmentWithin (operand : Rule Expr) : List Token → Rule Expr
  | [] => operand
  | _ :: rounds => do
    let target ← operand
    if (← next) = .punct .assign then
      let sign ← mark .assign ""
      match target with
      | .var name span =>
        let value ← assignmentWithin operand rounds
        pure (.assign name value (span.merge value.span))
      | _ => faultAt sign (.notAssignable target.form)
    else pure target

/-- Assignments over a rule for the expressions between `=` signs.  Only a variable can be
assigned to. -/
def assignmentRule (operand : Rule Expr) : Rule Expr :=
  fun ts => assignmentWithin operand ts ts

/-- Expressions over a rule for operands. -/
def expressionRule (operand : Rule Expr) : Rule Expr :=
  assignmentRule (binaryRule operand BinaryOp.loosest)

/-! ## Operands -/

/-- A literal or variable, or an expression in parentheses, for which `group` reads on behind
the opening one. -/
def primaryRule (group : Rule Expr) : Rule Expr
  | [] => expected "expression" []
  | t :: rest =>
    match t.kind with
    | .integer text =>
      match readInt? text with
      | some n => .ok (.lit (.int n) t.span) rest
      | none => fault (.integerTooLarge text) (t :: rest)
    | .float text =>
      match Binary64.ofText? text with
      | some x => .ok (.lit (.float x) t.span) rest
      | none => fault (.invalidFloat text) (t :: rest)
    | .string value => .ok (.lit (.string value) t.span) rest
    | .char value => .ok (.lit (.char value) t.span) rest
    | .keyword .true => .ok (.lit (.bool true) t.span) rest
    | .keyword .false => .ok (.lit (.bool false) t.span) rest
    | .identifier n => .ok (.var n t.span) rest
    | .punct .lparen => group rest
    | _ => expected "expression" (t :: rest)

/-- The arguments of a call, behind its opening parenthesis. -/
def argumentsRule (expression : Rule Expr) : Rule (List Expr) := do
  if (← next) = .punct .rparen then pure []
  else
    let first ← expression
    let others ← many (fun ts => peek ts = .punct .comma) do
      let _ ← mark .comma ""
      expression
    pure (first :: others)

/-- Takes the arguments of a call or the name of a member. -/
def postfixStep (expression : Rule Expr) (e : Expr) (kind : TokenKind) : Option (Rule Expr) :=
  match kind with
  | .punct .lparen => some do
    let _ ← mark .lparen ""
    let args ← argumentsRule expression
    let close ← mark .rparen "after arguments"
    pure (.call e args (e.span.merge close.span))
  | .punct .dot => some do
    let _ ← mark .dot ""
    let (n, span) ← name "property name after '.'"
    pure (.member e n (e.span.merge span))
  | _ => none

/-- An operand: operators in front of an operand, or a phrase followed by calls and member
accesses.  A minus sign subtracts from zero. -/
def prefixRule (operand expression group : Rule Expr) : Rule Expr := do
  match ← next with
  | .keyword .not =>
    let sign ← word .not ""
    let e ← operand
    pure (.unary .not e (sign.span.merge e.span))
  | .punct .minus =>
    let sign ← mark .minus ""
    let e ← operand
    pure (Expr.join .sub (.lit (.int 0) sign.span) e)
  | _ =>
    let e ← primaryRule group
    iterate (postfixStep expression) e

/-- What is left of an expression in parentheses behind the opening one. -/
def groupRule (expression : Rule Expr) : Rule Expr := do
  let e ← expression
  let _ ← mark .rparen "after expression"
  pure e

/-- Operands, with the given depth left.  Parentheses take one level more. -/
def operandRule : Nat → Rule Expr
  | 0, ts => fault (.tooDeep .expression) ts
  | depth + 1, ts =>
    let group : Rule Expr := match depth with
      | 0 => fault (.tooDeep .expression)
      | inner + 1 => groupRule (expressionRule (operandRule inner))
    prefixRule (operandRule depth) (expressionRule (operandRule depth)) group ts

end Idyl
