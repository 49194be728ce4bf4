import Mathlib
import Idyl.Proofs.Bare

/-!
# The nodes of a tree

What holds all over a tree is said of its nodes: the expressions inside an expression and the
statements inside a statement, each together with the tree below it.

## Main definitions

* `Idyl.Expr.nodes`, `Idyl.Stmt.nodes`, `Idyl.Function.stmts` — all nodes, outermost first.
* `Idyl.Stmt.exprs`, `Idyl.Stmt.branches` — the parts of one statement.

## Main results

* `Idyl.Expr.nodes_bare`, `Idyl.Stmt.nodes_bare` — taking the spans away takes them away from every
  node.
-/

set_option autoImplicit false

namespace Idyl

/-! ## Expressions -/

namespace Expr

mutual

/-- The expressions inside an expression, itself included. -/
def nodes : Expr → List Expr
  | lit value s => [lit value s]
  | var name s => [var name s]
  | assign name value s => assign name value s :: value.nodes
  | binary op left right s => binary op left right s :: (left.nodes ++ right.nodes)
  | unary op operand s => unary op operand s :: operand.nodes
  | call callee args s => call callee args s :: (callee.nodes ++ nodesAll args)
  | member object name s => member object name s :: object.nodes

/-- The expressions inside some expressions. -/
def nodesAll : List Expr → List Expr
  | [] => []
  | e :: es => e.nodes ++ nodesAll es

end

mutual

/-- The nodes of an expression without spans. -/
lemma nodes_bare (e : Expr) : e.bare.nodes = e.nodes.map bare := by
  cases e with
  | lit | var => rfl
  | assign _ value _ => simp [bare, nodes, nodes_bare value]
  | binary _ left right _ => simp [bare, nodes, nodes_bare left, nodes_bare right]
  | unary _ operand _ => simp [bare, nodes, nodes_bare operand]
  | call callee args _ => simp [bare, nodes, nodes_bare callee, nodesAll_bareAll args]
  | member object _ _ => simp [bare, nodes, nodes_bare object]

/-- The nodes of expressions without spans. -/
lemma nodesAll_bareAll : ∀ es : List Expr, nodesAll (bareAll es) = (nodesAll es).map bare
  | [] => rfl
  | e :: es => by simp [bareAll, nodesAll, nodes_bare e, nodesAll_bareAll es]

end

end Expr

/-! ## Statements -/

namespace Stmt

/-- The expressions that a statement itself is made of. -/
def exprs : Stmt → List Expr
  | declare _ _ init _ => [init]
  | eval e _ => [e]
  | block .. => []
  | ifThen condition _ _ | ifElse condition _ _ _ | while_ condition _ _ => [condition]
  | return_ value _ => value.toList

/-- The branches of an `if`, or the body of a `while`. -/
def branches : Stmt → List Stmt
  | ifThen _ thenBranch _ => [thenBranch]
  | ifElse _ thenBranch elseBranch _ => [thenBranch, elseBranch]
  | while_ _ body _ => [body]
  | _ => []

mutual

/-- The statements inside a statement, itself included. -/
def nodes : Stmt → List Stmt
  | declare type name init s => [declare type name init s]
  | eval e s => [eval e s]
  | block body s => block body s :: nodesAll body
  | ifThen condition thenBranch s => ifThen condition thenBranch s :: thenBranch.nodes
  | ifElse condition thenBranch elseBranch s =>
    ifElse condition thenBranch elseBranch s :: (thenBranch.nodes ++ elseBranch.nodes)
  | while_ condition body s => while_ condition body s :: body.nodes
  | return_ value s => [return_ value s]

/-- The statements inside some statements. -/
def nodesAll : List Stmt → List Stmt
  | [] => []
  | s :: ss => s.nodes ++ nodesAll ss

end

/-- The expressions of a statement without spans. -/
lemma exprs_bare (s : Stmt) : s.bare.exprs = s.exprs.map Expr.bare := by
  cases s with
  | return_ value _ => cases value <;> rfl
  | _ => rfl

/-- The branches of a statement without spans. -/
lemma branches_bare (s : Stmt) : s.bare.branches = s.branches.map bare := by
  cases s <;> rfl

mutual

/-- The nodes of a statement without spans. -/
lemma nodes_bare (s : Stmt) : s.bare.nodes = s.nodes.map bare := by
  cases s with
  | declare | eval | return_ => rfl
  | block body _ => simp [bare, nodes, nodesAll_bareAll body]
  | ifThen _ thenBranch _ => simp [bare, nodes, nodes_bare thenBranch]
  | ifElse _ thenBranch elseBranch _ =>
    simp [bare, nodes, nodes_bare thenBranch, nodes_bare elseBranch]
  | while_ _ body _ => simp [bare, nodes, nodes_bare body]

/-- The nodes of statements without spans. -/
lemma nodesAll_bareAll : ∀ ss : List Stmt, nodesAll (bareAll ss) = (nodesAll ss).map bare
  | [] => rfl
  | s :: ss => by simp [bareAll, nodesAll, nodes_bare s, nodesAll_bareAll ss]

end

end Stmt

/-! ## Functions -/

/-- The statements inside a function. -/
def Function.stmts (f : Function) : List Stmt := Stmt.nodesAll f.body.body

/-- The statements of a function without spans. -/
lemma Function.stmts_bare (f : Function) : f.bare.stmts = f.stmts.map Stmt.bare := by
  show Stmt.nodesAll (f.body.body.map Stmt.bare) = _
  rw [← Stmt.bareAll_eq_map, Stmt.nodesAll_bareAll]
  rfl

end Idyl
