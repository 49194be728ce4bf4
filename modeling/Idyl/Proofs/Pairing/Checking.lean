import Mathlib
import Idyl.Proofs.Pairing.Trees
import Idyl.Typing.Check

/-!
# Checking carries places along

Programs of two runs that differ only in places, which stand for each other, have the same faults,
at places that stand for each other, and are known by the same names.  The types of expressions and
the variables that are known at a place are the same in both runs, so the check takes the same way
through both trees.

## Main definitions

* `Idyl.Finding.Paired`, `Idyl.Typed.Paired`, `Idyl.Walked.Paired` — what checking phrases of two
  runs gives.

## Main results

* `Idyl.checkExpr_paired`, `Idyl.checkStmt_paired` — phrases.
* `Idyl.checkProgram_paired`, `Idyl.info_eq_of_paired` — programs.
-/

set_option autoImplicit false

namespace Idyl

variable {M : Pairing} {g : Globals} {scope : Scope}

/-- The same fault, at places that stand for each other. -/
structure Finding.Paired (M : Pairing) (f f' : Finding) : Prop where
  fault_eq : f.fault = f'.fault
  span : M.span f.span f'.span

/-- The same type, and the same faults at places that stand for each other. -/
structure Typed.Paired (M : Pairing) (t t' : Typed) : Prop where
  type_eq : t.type = t'.type
  findings : List.Forall₂ (Finding.Paired M) t.findings t'.findings

/-- The same variables, and the same faults at places that stand for each other. -/
structure Walked.Paired (M : Pairing) (w w' : Walked) : Prop where
  scope_eq : w.scope = w'.scope
  findings : List.Forall₂ (Finding.Paired M) w.findings w'.findings

/-- One fault, at places that stand for each other. -/
lemma Finding.paired_single {f : SemanticFault} {s s' : Span} (hs : M.span s s') :
    List.Forall₂ (Finding.Paired M) [⟨f, s⟩] [⟨f, s'⟩] :=
  .cons ⟨rfl, hs⟩ .nil

/-! ## Expressions -/

section Operators

variable {s s' : Span} (hs : M.span s s')

include hs

/-- Calls of methods in two places have the same type and paired findings. -/
lemma checkMethod_paired (module method : String) (count : Nat) :
    (checkMethod g module method count s).Paired M (checkMethod g module method count s') := by
  unfold checkMethod
  split
  · cases ConsoleMethod.ofName? method with
    | none => exact ⟨rfl, Finding.paired_single hs⟩
    | some m =>
      refine ⟨rfl, ?_⟩
      dsimp only
      split
      · exact Finding.paired_single hs
      · exact .nil
  · split
    · exact ⟨rfl, .nil⟩
    · exact ⟨rfl, Finding.paired_single hs⟩

/-- Calls of functions in two places have the same type and paired findings. -/
lemma checkNamed_paired (function : String) (count : Nat) :
    (checkNamed g function count s).Paired M (checkNamed g function count s') := by
  unfold checkNamed
  split
  · split
    · exact ⟨rfl, .nil⟩
    · exact ⟨rfl, Finding.paired_single hs⟩
  · split
    · exact ⟨rfl, .nil⟩
    · exact ⟨rfl, Finding.paired_single hs⟩

/-- A value that does not fit is found in both places. -/
lemma checkFits_paired (target : Ty) (name : String) (value : Option Ty) :
    List.Forall₂ (Finding.Paired M) (checkFits target name value s)
      (checkFits target name value s') := by
  unfold checkFits
  split
  · split
    · exact .nil
    · exact Finding.paired_single hs
  · exact .nil

/-- Binary operators in two places have the same type and paired findings. -/
lemma checkBinary_paired (op : BinaryOp) (left right : Option Ty) :
    (checkBinary op left right s).Paired M (checkBinary op left right s') := by
  unfold checkBinary
  split
  · exact ⟨rfl, .nil⟩
  · split
    · refine ⟨rfl, ?_⟩
      dsimp only
      split
      · exact .nil
      · exact Finding.paired_single hs
    · exact ⟨rfl, .nil⟩

/-- Unary operators in two places have paired findings. -/
lemma checkUnary_paired (op : UnaryOp) (operand : Option Ty) :
    List.Forall₂ (Finding.Paired M) (checkUnary op operand s) (checkUnary op operand s') := by
  unfold checkUnary
  cases op <;> dsimp only <;> split
  · exact .nil
  · exact Finding.paired_single hs
  · exact .nil
  · exact Finding.paired_single hs

end Operators

mutual

/-- **Expressions.**

**Proof sketch.** By recursion on the expression.  The parts have the same types in both runs, so
the check takes the same branch; what it finds lies at the span of a phrase. -/
lemma checkExpr_paired (g : Globals) (scope : Scope) : ∀ (e : Expr) {e' : Expr}, e.Paired M e' →
    (checkExpr g scope e).Paired M (checkExpr g scope e')
  | .lit .., _, h => by
    cases h with
    | lit => exact ⟨rfl, .nil⟩
  | .var name _, _, h => by
    cases h with
    | var hs =>
      rw [checkExpr, checkExpr]
      cases scope.typeOf? name with
      | none => exact ⟨rfl, Finding.paired_single hs⟩
      | some t => exact ⟨rfl, .nil⟩
  | .assign name value _, _, h => by
    cases h with
    | assign hv hs =>
      have hvalue := checkExpr_paired g scope value hv
      rw [checkExpr, checkExpr, ← hvalue.type_eq]
      cases scope.typeOf? name with
      | none => exact ⟨rfl, .cons ⟨rfl, hs⟩ hvalue.findings⟩
      | some t => exact ⟨rfl, List.rel_append hvalue.findings (checkFits_paired hv.span ..)⟩
  | .binary op left right _, _, h => by
    cases h with
    | binary hl hr hs =>
      have hleft := checkExpr_paired g scope left hl
      have hright := checkExpr_paired g scope right hr
      have hop := checkBinary_paired hs op (checkExpr g scope left).type
        (checkExpr g scope right).type
      rw [checkExpr, checkExpr, ← hleft.type_eq, ← hright.type_eq]
      exact ⟨hop.type_eq,
        List.rel_append (List.rel_append hleft.findings hright.findings) hop.findings⟩
  | .unary op operand _, _, h => by
    cases h with
    | unary he hs =>
      have hoperand := checkExpr_paired g scope operand he
      rw [checkExpr, checkExpr, ← hoperand.type_eq]
      exact ⟨rfl, List.rel_append hoperand.findings (checkUnary_paired hs ..)⟩
  | .member object name _, _, h => by
    cases h with
    | member ho _ =>
      have hobject := checkExpr_paired g scope object ho
      rw [checkExpr, checkExpr, ← hobject.type_eq]
      exact ⟨rfl, hobject.findings⟩
  | .call (.member object name _) args _, _, h => by
    cases h with
    | call hc hargs hs =>
      have harguments := checkArgs_paired g scope args hargs
      cases hc with
      | member ho _ =>
        have hobject := (checkExpr_paired g scope object ho).findings
        cases ho with
        | @var module =>
          have hcall := checkMethod_paired (g := g) hs module name args.length
          rw [checkExpr, checkExpr, ← hargs.length_eq]
          exact ⟨hcall.type_eq, List.rel_append harguments hcall.findings⟩
        | lit | assign | binary | unary | call | member =>
          simp only [checkExpr] at hobject ⊢
          exact ⟨rfl,
            List.rel_append (List.rel_append hobject harguments) (Finding.paired_single hs)⟩
  | .call (.var function _) args _, _, h => by
    cases h with
    | call hc hargs hs =>
      have hcall := checkNamed_paired (g := g) hs function args.length
      cases hc with
      | var =>
        rw [checkExpr, checkExpr, ← hargs.length_eq]
        exact ⟨hcall.type_eq, List.rel_append (checkArgs_paired g scope args hargs) hcall.findings⟩
  | .call (.lit ..) args _, _, h | .call (.assign ..) args _, _, h
  | .call (.binary ..) args _, _, h | .call (.unary ..) args _, _, h
  | .call (.call ..) args _, _, h => by
    cases h with
    | call hc hargs hs =>
      have harguments := checkArgs_paired g scope args hargs
      cases hc
      simp only [checkExpr]
      exact ⟨rfl, List.rel_append harguments (Finding.paired_single hs)⟩

/-- Arguments of calls. -/
lemma checkArgs_paired (g : Globals) (scope : Scope) : ∀ (es : List Expr) {es' : List Expr},
    List.Forall₂ (Expr.Paired M) es es' →
    List.Forall₂ (Finding.Paired M) (checkArgs g scope es) (checkArgs g scope es')
  | [], _, .nil => .nil
  | e :: es, _, .cons he hes => by
    rw [checkArgs, checkArgs]
    exact List.rel_append (checkExpr_paired g scope e he).findings
      (checkArgs_paired g scope es hes)

end

/-! ## Statements -/

/-- Paired declarations make the same variable known. -/
lemma checkDeclare_paired (type : Ty) (name : String) {init init' : Expr} {s s' : Span}
    (hinit : init.Paired M init') (hs : M.span s s') :
    (checkDeclare g scope type name init s).Paired M (checkDeclare g scope type name init' s') := by
  have hvalue := checkExpr_paired g scope init hinit
  unfold checkDeclare
  dsimp only
  rw [hvalue.type_eq]
  split
  · exact ⟨rfl, .cons ⟨rfl, hs⟩ hvalue.findings⟩
  · split
    · exact ⟨rfl, .cons ⟨rfl, hs⟩ hvalue.findings⟩
    · cases (checkExpr g scope init').type with
      | none => exact ⟨rfl, hvalue.findings⟩
      | some v =>
        dsimp only
        split
        · exact ⟨rfl, hvalue.findings⟩
        · exact ⟨rfl, List.rel_append hvalue.findings (Finding.paired_single hinit.span)⟩

mutual

/-- **Statements.** -/
lemma checkStmt_paired (g : Globals) : ∀ (scope : Scope) (s : Stmt) {s' : Stmt}, s.Paired M s' →
    (checkStmt g scope s).Paired M (checkStmt g scope s')
  | scope, .declare type name _ _, _, .declare hinit hs => by
    rw [checkStmt, checkStmt]
    exact checkDeclare_paired type name hinit hs
  | scope, .eval e _, _, .eval he _ => by
    rw [checkStmt, checkStmt]
    exact ⟨rfl, (checkExpr_paired g scope e he).findings⟩
  | scope, .block body _, _, .block hbody _ => by
    rw [checkStmt, checkStmt]
    exact checkStmts_paired g scope body hbody
  | scope, .ifThen c t _, _, .ifThen hc ht _ => by
    have hthen := checkStmt_paired g scope t ht
    rw [checkStmt, checkStmt]
    exact ⟨hthen.scope_eq, List.rel_append (checkExpr_paired g scope c hc).findings hthen.findings⟩
  | scope, .ifElse c t e _, _, .ifElse hc ht he _ => by
    have hcond := (checkExpr_paired g scope c hc).findings
    have hthen := checkStmt_paired g scope t ht
    have helse := checkStmt_paired g (checkStmt g scope t).scope e he
    rw [checkStmt, checkStmt, ← hthen.scope_eq]
    exact ⟨helse.scope_eq,
      List.rel_append (List.rel_append hcond hthen.findings) helse.findings⟩
  | scope, .while_ c b _, _, .while_ hc hb _ => by
    have hbody := checkStmt_paired g scope b hb
    rw [checkStmt, checkStmt]
    exact ⟨hbody.scope_eq, List.rel_append (checkExpr_paired g scope c hc).findings hbody.findings⟩
  | scope, .return_ none _, _, .return_ .none _ => ⟨rfl, .nil⟩
  | scope, .return_ (some e) _, _, .return_ (.some he) _ => by
    rw [checkStmt, checkStmt]
    exact ⟨rfl, (checkExpr_paired g scope e he).findings⟩

/-- Statements one after the other. -/
lemma checkStmts_paired (g : Globals) : ∀ (scope : Scope) (ss : List Stmt) {ss' : List Stmt},
    List.Forall₂ (Stmt.Paired M) ss ss' →
    (checkStmts g scope ss).Paired M (checkStmts g scope ss')
  | _, [], _, .nil => ⟨rfl, .nil⟩
  | scope, s :: ss, _, .cons hs hss => by
    have hfirst := checkStmt_paired g scope s hs
    have hothers := checkStmts_paired g (checkStmt g scope s).scope ss hss
    rw [checkStmts, checkStmts, ← hfirst.scope_eq]
    exact ⟨hothers.scope_eq, List.rel_append hfirst.findings hothers.findings⟩

end

/-! ## Functions and programs -/

/-- Paired parameters make the same variables known. -/
lemma checkParams_paired {ps ps' : List Param} (h : List.Forall₂ (Param.Paired M) ps ps') :
    (checkParams scope ps).Paired M (checkParams scope ps') := by
  induction h generalizing scope with
  | nil => exact ⟨rfl, .nil⟩
  | cons hp _ ih =>
    rw [checkParams, checkParams, ← hp.name_eq, ← hp.type_eq]
    split
    · exact ih
    · exact ⟨ih.scope_eq, .cons ⟨rfl, hp.span⟩ ih.findings⟩

/-- Paired functions have paired findings. -/
lemma checkFunction_paired {f f' : Function} (h : f.Paired M f') :
    List.Forall₂ (Finding.Paired M) (checkFunction g f) (checkFunction g f') := by
  have hparams : (checkParams {} f.params).Paired M (checkParams {} f'.params) :=
    checkParams_paired h.params
  rw [checkFunction, checkFunction, ← hparams.scope_eq]
  exact List.rel_append hparams.findings (checkStmts_paired g _ _ h.body.body).findings

/-- Names are repeated in both lists of functions alike. -/
lemma checkNames_paired {fs fs' : List Function} (h : List.Forall₂ (Function.Paired M) fs fs')
    (seen : List String) :
    List.Forall₂ (Finding.Paired M) (checkNames seen fs) (checkNames seen fs') := by
  induction h generalizing seen with
  | nil => exact .nil
  | @cons f f' _ _ hf _ ih =>
    rw [checkNames, checkNames, ← hf.name_eq]
    split
    · exact .cons ⟨rfl, hf.span⟩ (ih (f.name :: seen))
    · exact ih (f.name :: seen)

variable {p p' : Program}

/-- Paired programs have the same names. -/
lemma info_eq_of_paired (h : p.Paired M p') (libraries : NameSet) :
    p.info libraries = p'.info libraries := by
  rw [Program.info, Program.info, map_eq_of_forall₂ h.imports Import.Paired.name_eq,
    map_eq_of_forall₂ h.functions Function.Paired.name_eq]

/-- **Paired programs have paired findings.** -/
lemma findings_paired (h : p.Paired M p') (libraries : NameSet) :
    List.Forall₂ (Finding.Paired M) (findings p libraries) (findings p' libraries) := by
  have hall : List.Forall₂ (Function.Paired M) p.allFunctions p'.allFunctions :=
    List.rel_append h.functions (.cons h.main .nil)
  rw [findings, findings, ← info_eq_of_paired h]
  exact List.rel_append (checkNames_paired h.functions [])
    (List.rel_flatMap hall fun _ _ => checkFunction_paired)

/-- **Checking programs carries places along.** -/
lemma checkProgram_paired (h : p.Paired M p') (libraries : NameSet) :
    List.Forall₂ (Located.Paired M) (checkProgram p libraries) (checkProgram p' libraries) :=
  List.rel_map (fun _ _ hf => ⟨hf.fault_eq, h.file, hf.span⟩) (findings_paired h libraries)

end Idyl
