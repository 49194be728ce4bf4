import Mathlib
import Idyl.Proofs.Grammar.Shape

/-!
# Paths through a tree

The tree of a file has nodes of several types.  Here they are nodes of one type, each with its
parts in the order of the text; a part is linked to its node as a statement, an expression, an
operand and so on.  A path leads from a node down to a part of a part of it, along such links.

## Main definitions

* `Idyl.Node`, `Idyl.Link` — the nodes of a tree, and how a node belongs to the one above it.
* `Idyl.Node.links`, `Idyl.Node.children` — the parts of a node.
* `Idyl.Node.Path` — paths, with the links that they take.

## Main results

* `Idyl.Node.Path.bare`, `Idyl.Node.Path.exists_of_bare` — spans make no difference to the paths.
-/

set_option autoImplicit false

namespace Idyl

/-- The nodes of the tree of a file. -/
inductive Node where
  | import_ (i : Import)
  | function (f : Function)
  | param (p : Param)
  | block (b : Block)
  | stmt (s : Stmt)
  | expr (e : Expr)

/-- How a node belongs to the node above it. -/
inductive Link where
  /-- A parameter of a function. -/
  | param
  /-- The body of a function. -/
  | body
  /-- A declaration in a block. -/
  | declaration
  /-- Any other statement in a block, the branch of an `if`, or the body of a `while`. -/
  | statement
  /-- An expression of a statement. -/
  | expression
  /-- The value of a declared variable, if it is the one of a variable declared without a value. -/
  | default
  /-- The operand of a unary operator. -/
  | operand
  /-- An argument of a call. -/
  | argument
  /-- Any other part of an expression. -/
  | part
deriving DecidableEq

/-- Whether an expression is the value of a variable of the type that is declared without one. -/
def Expr.isDefault (type : Ty) : Expr → Bool
  | lit value _ => type.default? = some value
  | _ => false

/-- How the value of a declared variable belongs to its declaration. -/
def Expr.initLink (type : Ty) (init : Expr) : Link :=
  if init.isDefault type then .default else .expression

/-- How a statement belongs to a block or to a statement. -/
def Stmt.link (s : Stmt) : Link := if s.isDeclaration then .declaration else .statement

namespace Node

/-- The parts of an expression. -/
def exprLinks : Expr → List (Link × Node)
  | .lit .. | .var .. => []
  | .assign _ value _ => [(.part, .expr value)]
  | .binary _ left right _ => [(.part, .expr left), (.part, .expr right)]
  | .unary _ operand _ => [(.operand, .expr operand)]
  | .call callee args _ => (.part, .expr callee) :: args.map fun a => (.argument, .expr a)
  | .member object _ _ => [(.part, .expr object)]

/-- The parts of a statement. -/
def stmtLinks : Stmt → List (Link × Node)
  | .declare type _ init _ => [(init.initLink type, .expr init)]
  | .eval e _ => [(.expression, .expr e)]
  | .block body _ => body.map fun s => (s.link, .stmt s)
  | .ifThen condition thenBranch _ =>
    [(.expression, .expr condition), (thenBranch.link, .stmt thenBranch)]
  | .ifElse condition thenBranch elseBranch _ =>
    [(.expression, .expr condition), (thenBranch.link, .stmt thenBranch),
      (elseBranch.link, .stmt elseBranch)]
  | .while_ condition body _ => [(.expression, .expr condition), (body.link, .stmt body)]
  | .return_ value _ => value.toList.map fun e => (.expression, .expr e)

/-- The parts of a node in the order of the text, and how they belong to it. -/
def links : Node → List (Link × Node)
  | import_ _ | param _ => []
  | function f => f.params.map (fun p => (.param, .param p)) ++ [(.body, .block f.body)]
  | block b => b.body.map fun s => (s.link, .stmt s)
  | stmt s => stmtLinks s
  | expr e => exprLinks e

/-- The parts of a node in the order of the text. -/
def children (x : Node) : List Node := x.links.map Prod.snd

/-- A path from a node down to a node, with the links on it. -/
inductive Path : Node → List Link → Node → Prop
  | nil (x : Node) : Path x [] x
  | cons {x y z : Node} {l : Link} {ls : List Link} (head : (l, y) ∈ x.links)
      (tail : Path y ls z) : Path x (l :: ls) z

/-! ## Spans do not matter -/

/-- A node with all spans taken away. -/
def bare : Node → Node
  | import_ i => import_ i.bare
  | function f => function f.bare
  | param p => param p.bare
  | block b => block b.bare
  | stmt s => stmt s.bare
  | expr e => expr e.bare

/-- The way to a first value does not depend on spans. -/
lemma initLink_bare (type : Ty) (init : Expr) : init.bare.initLink type = init.initLink type := by
  cases init <;> rfl

/-- The way to a statement does not depend on spans. -/
lemma link_bare (s : Stmt) : s.bare.link = s.link := by
  rw [Stmt.link, Stmt.isDeclaration_bare, Stmt.link]

/-- The parts of an expression without spans. -/
lemma exprLinks_bare (e : Expr) : exprLinks e.bare = (exprLinks e).map (Prod.map id bare) := by
  cases e with
  | call callee args _ => simp [exprLinks, Expr.bare, Expr.bareAll_eq_map, bare]
  | _ => rfl

/-- The parts of a statement without spans. -/
lemma stmtLinks_bare (s : Stmt) : stmtLinks s.bare = (stmtLinks s).map (Prod.map id bare) := by
  cases s with
  | declare type _ init _ => simp [stmtLinks, Stmt.bare, bare, initLink_bare]
  | block body _ => simp [stmtLinks, Stmt.bare, Stmt.bareAll_eq_map, bare, link_bare]
  | return_ value _ => cases value <;> rfl
  | _ => simp [stmtLinks, Stmt.bare, bare, link_bare]

/-- The parts of a node without spans. -/
lemma links_bare (x : Node) : x.bare.links = x.links.map (Prod.map id bare) := by
  cases x with
  | import_ i | param p => rfl
  | function f => simp [links, bare, Function.bare]
  | block b => simp [links, bare, Block.bare, link_bare]
  | stmt s => exact stmtLinks_bare s
  | expr e => exact exprLinks_bare e

/-- A path without spans. -/
lemma Path.bare {x y : Node} {ls : List Link} (h : Path x ls y) : Path x.bare ls y.bare := by
  induction h with
  | nil x => exact .nil x.bare
  | cons hmem _ ih =>
    refine .cons ?_ ih
    rw [links_bare]
    exact List.mem_map_of_mem hmem

/-- Each path through a tree without spans is one through the tree itself. -/
lemma Path.exists_of_bare {x y' : Node} {ls : List Link} (h : Path x.bare ls y') :
    ∃ y, Path x ls y ∧ y.bare = y' := by
  induction ls generalizing x with
  | nil =>
    cases h
    exact ⟨x, .nil x, rfl⟩
  | cons l ls ih =>
    cases h with
    | cons hmem htail =>
      rw [links_bare] at hmem
      obtain ⟨part, hpart, heq⟩ := List.mem_map.1 hmem
      cases heq
      obtain ⟨y, hpath, hy⟩ := ih htail
      exact ⟨y, .cons hpart hpath, hy⟩

end Node

end Idyl
