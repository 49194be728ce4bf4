import Mathlib
import Idyl.CompileError
import Idyl.Token
import Idyl.Tree

/-!
# Two runs side by side

What is read and checked depends on the kinds of tokens; the places of tokens are only carried
along.  To say so, two runs are put side by side.  A pairing says which tokens, spans and files of
the one run stand for which of the other.  All that can happen to spans is that they are merged, so
merging has to respect the pairing, and nothing else is asked of it.

Taking for both runs the same one, a pairing says what holds of every place that comes out of it.

## Main definitions

* `Idyl.Pairing` — what of one run stands for what of another.
* `Idyl.Expr.Paired`, `Idyl.Stmt.Paired`, `Idyl.Function.Paired`, `Idyl.Program.Paired` — trees
  that differ in places that stand for each other, and in nothing else.
* `Idyl.Located.Paired` — faults of which the same holds.

## Main results

* `Idyl.Expr.Paired.span`, `Idyl.Stmt.Paired.span` — the places of whole phrases stand for each
  other.
-/

set_option autoImplicit false

namespace Idyl

/-- Which tokens, spans and files of one run stand for which of another. -/
structure Pairing where
  token : Token → Token → Prop
  span : Span → Span → Prop
  file : String → String → Prop
  kind_eq : ∀ {t t' : Token}, token t t' → t.kind = t'.kind
  span_of_token : ∀ {t t' : Token}, token t t' → span t.span t'.span
  file_of_token : ∀ {t t' : Token}, token t t' → file t.file t'.file
  merge : ∀ {s s' u u' : Span}, span s s' → span u u' → span (s.merge u) (s'.merge u')

/-- What two lists agree on entry by entry, they agree on as a whole. -/
lemma map_eq_of_forall₂ {α β : Type} {R : α → α → Prop} {f : α → β} {xs xs' : List α}
    (h : List.Forall₂ R xs xs') (hf : ∀ {a a' : α}, R a a' → f a = f a') :
    xs.map f = xs'.map f := by
  induction h with
  | nil => rfl
  | cons ha _ ih => rw [List.map_cons, List.map_cons, hf ha, ih]

variable {M : Pairing}

/-! ## Expressions -/

namespace Expr

/-- Expressions that differ only in places, which stand for each other. -/
inductive Paired (M : Pairing) : Expr → Expr → Prop
  | lit {value : Literal} {s s' : Span} (hs : M.span s s') : Paired M (.lit value s) (.lit value s')
  | var {name : String} {s s' : Span} (hs : M.span s s') : Paired M (.var name s) (.var name s')
  | assign {name : String} {v v' : Expr} {s s' : Span} (hv : Paired M v v') (hs : M.span s s') :
      Paired M (.assign name v s) (.assign name v' s')
  | binary {op : BinaryOp} {l l' r r' : Expr} {s s' : Span} (hl : Paired M l l')
      (hr : Paired M r r') (hs : M.span s s') : Paired M (.binary op l r s) (.binary op l' r' s')
  | unary {op : UnaryOp} {e e' : Expr} {s s' : Span} (he : Paired M e e') (hs : M.span s s') :
      Paired M (.unary op e s) (.unary op e' s')
  | call {c c' : Expr} {args args' : List Expr} {s s' : Span} (hc : Paired M c c')
      (hargs : List.Forall₂ (Paired M) args args') (hs : M.span s s') :
      Paired M (.call c args s) (.call c' args' s')
  | member {name : String} {o o' : Expr} {s s' : Span} (ho : Paired M o o') (hs : M.span s s') :
      Paired M (.member o name s) (.member o' name s')

variable {e e' l l' r r' : Expr}

/-- Paired expressions lie at paired spans. -/
lemma Paired.span (h : e.Paired M e') : M.span e.span e'.span := by
  cases h <;> assumption

/-- Two paired operands are joined in the same way. -/
lemma Paired.join {op : BinaryOp} (hl : l.Paired M l') (hr : r.Paired M r') :
    (Expr.join op l r).Paired M (Expr.join op l' r') :=
  .binary hl hr (M.merge hl.span hr.span)

end Expr

/-! ## Statements -/

namespace Stmt

/-- Statements that differ only in places, which stand for each other. -/
inductive Paired (M : Pairing) : Stmt → Stmt → Prop
  | declare {type : Ty} {name : String} {init init' : Expr} {s s' : Span}
      (hinit : init.Paired M init') (hs : M.span s s') :
      Paired M (.declare type name init s) (.declare type name init' s')
  | eval {e e' : Expr} {s s' : Span} (he : e.Paired M e') (hs : M.span s s') :
      Paired M (.eval e s) (.eval e' s')
  | block {body body' : List Stmt} {s s' : Span} (hbody : List.Forall₂ (Paired M) body body')
      (hs : M.span s s') : Paired M (.block body s) (.block body' s')
  | ifThen {c c' : Expr} {t t' : Stmt} {s s' : Span} (hc : c.Paired M c') (ht : Paired M t t')
      (hs : M.span s s') : Paired M (.ifThen c t s) (.ifThen c' t' s')
  | ifElse {c c' : Expr} {t t' e e' : Stmt} {s s' : Span} (hc : c.Paired M c')
      (ht : Paired M t t') (he : Paired M e e') (hs : M.span s s') :
      Paired M (.ifElse c t e s) (.ifElse c' t' e' s')
  | while_ {c c' : Expr} {b b' : Stmt} {s s' : Span} (hc : c.Paired M c') (hb : Paired M b b')
      (hs : M.span s s') : Paired M (.while_ c b s) (.while_ c' b' s')
  | return_ {value value' : Option Expr} {s s' : Span}
      (hvalue : Option.Rel (Expr.Paired M) value value') (hs : M.span s s') :
      Paired M (.return_ value s) (.return_ value' s')

/-- Paired statements lie at paired spans. -/
lemma Paired.span {s s' : Stmt} (h : s.Paired M s') : M.span s.span s'.span := by
  cases h <;> assumption

end Stmt

/-- Blocks that differ only in places, which stand for each other. -/
structure Block.Paired (M : Pairing) (b b' : Block) : Prop where
  body : List.Forall₂ (Stmt.Paired M) b.body b'.body
  span : M.span b.span b'.span

/-! ## Declarations -/

/-- Parameters that differ only in places, which stand for each other. -/
structure Param.Paired (M : Pairing) (p p' : Param) : Prop where
  type_eq : p.type = p'.type
  name_eq : p.name = p'.name
  span : M.span p.span p'.span

/-- Imports that differ only in places, which stand for each other. -/
structure Import.Paired (M : Pairing) (i i' : Import) : Prop where
  name_eq : i.name = i'.name
  span : M.span i.span i'.span

/-- Functions that differ only in places, which stand for each other. -/
structure Function.Paired (M : Pairing) (f f' : Function) : Prop where
  name_eq : f.name = f'.name
  returns_eq : f.returns = f'.returns
  params : List.Forall₂ (Param.Paired M) f.params f'.params
  body : f.body.Paired M f'.body
  span : M.span f.span f'.span

/-- Programs that differ only in places and files, which stand for each other. -/
structure Program.Paired (M : Pairing) (p p' : Program) : Prop where
  imports : List.Forall₂ (Import.Paired M) p.imports p'.imports
  functions : List.Forall₂ (Function.Paired M) p.functions p'.functions
  main : p.main.Paired M p'.main
  file : M.file p.file p'.file

/-! ## Faults -/

/-- The same fault, at places and in files that stand for each other. -/
structure Located.Paired {φ : Type} (M : Pairing) (e e' : Located φ) : Prop where
  fault_eq : e.fault = e'.fault
  file : M.file e.file e'.file
  span : M.span e.span e'.span

end Idyl
