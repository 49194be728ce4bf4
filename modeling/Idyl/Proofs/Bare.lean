import Mathlib
import Idyl.Tree

/-!
# Trees without places

Two readings of a program are the same when they differ in nothing but the places of their
phrases.  A bare tree is a tree in which every span is the empty one at the start of the text,
and two trees are equal up to spans when they have the same bare tree.

## Main definitions

* `Idyl.Expr.bare`, `Idyl.Stmt.bare`, `Idyl.Block.bare`, `Idyl.Function.bare`,
  `Idyl.Program.bare` — trees with all spans taken away.

## Main results

* `Idyl.Expr.bareAll_eq_map`, `Idyl.Stmt.bareAll_eq_map` — lists of phrases are taken bare one by
  one.
* `Idyl.Stmt.endsOpen_bare` — whether a statement can be continued by `else` is no matter of spans.
-/

set_option autoImplicit false

namespace Idyl

/-! ## Expressions -/

namespace Expr

mutual

/-- An expression with all spans taken away. -/
def bare : Expr → Expr
  | lit value _ => lit value {}
  | var name _ => var name {}
  | assign name value _ => assign name value.bare {}
  | binary op left right _ => binary op left.bare right.bare {}
  | unary op operand _ => unary op operand.bare {}
  | call callee args _ => call callee.bare (bareAll args) {}
  | member object name _ => member object.bare name {}

/-- Expressions with all spans taken away. -/
def bareAll : List Expr → List Expr
  | [] => []
  | e :: es => e.bare :: bareAll es

end

/-- Expressions are stripped one by one. -/
lemma bareAll_eq_map (es : List Expr) : bareAll es = es.map bare := by
  induction es with
  | nil => rfl
  | cons e es ih => rw [bareAll, ih, List.map_cons]

/-- An expression is a variable exactly if its bare form is. -/
lemma bare_eq_var_iff {e : Expr} {x : String} : e.bare = var x {} ↔ ∃ s, e = var x s := by
  cases e <;> simp [bare]

end Expr

/-! ## Statements -/

namespace Stmt

mutual

/-- A statement with all spans taken away. -/
def bare : Stmt → Stmt
  | declare type name init _ => declare type name init.bare {}
  | eval e _ => eval e.bare {}
  | block body _ => block (bareAll body) {}
  | ifThen condition thenBranch _ => ifThen condition.bare thenBranch.bare {}
  | ifElse condition thenBranch elseBranch _ =>
    ifElse condition.bare thenBranch.bare elseBranch.bare {}
  | while_ condition body _ => while_ condition.bare body.bare {}
  | return_ value _ => return_ (value.map Expr.bare) {}

/-- Statements with all spans taken away. -/
def bareAll : List Stmt → List Stmt
  | [] => []
  | s :: ss => s.bare :: bareAll ss

end

/-- Statements are stripped one by one. -/
lemma bareAll_eq_map (ss : List Stmt) : bareAll ss = ss.map bare := by
  induction ss with
  | nil => rfl
  | cons s ss ih => rw [bareAll, ih, List.map_cons]

/-- Whether a statement ends in an `if` without an `else`, so that an `else` behind it would be
taken for the missing one. -/
def endsOpen : Stmt → Bool
  | ifThen .. => true
  | ifElse _ _ elseBranch _ => elseBranch.endsOpen
  | while_ _ body _ => body.endsOpen
  | _ => false

/-- Taking the spans away changes nothing about how a statement ends. -/
@[simp] lemma endsOpen_bare : ∀ s : Stmt, s.bare.endsOpen = s.endsOpen
  | declare .. | eval .. | block .. | ifThen .. | return_ .. => rfl
  | ifElse _ _ elseBranch _ => endsOpen_bare elseBranch
  | while_ _ body _ => endsOpen_bare body

end Stmt

/-! ## Declarations -/

/-- A block with all spans taken away. -/
def Block.bare (b : Block) : Block := ⟨b.body.map Stmt.bare, {}⟩

/-- A parameter with its span taken away. -/
def Param.bare (p : Param) : Param := { p with span := {} }

/-- An import with its span taken away. -/
def Import.bare (i : Import) : Import := { i with span := {} }

/-- A function with all spans taken away. -/
def Function.bare (f : Function) : Function :=
  { f with params := f.params.map Param.bare, body := f.body.bare, span := {} }

/-- A program with all spans taken away. -/
def Program.bare (p : Program) : Program :=
  { p with imports := p.imports.map Import.bare, functions := p.functions.map Function.bare
           main := p.main.bare }

end Idyl
