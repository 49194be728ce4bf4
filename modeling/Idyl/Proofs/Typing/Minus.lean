import Mathlib
import Idyl.Proofs.Nodes
import Idyl.Proofs.Typing.Separate

/-!
# A minus sign is a subtraction from zero

Reading a text turns a minus sign in front of a phrase into a subtraction from zero, but a tree can
also hold the sign itself.  The check has a rule for either, and the two rules differ where the
operand is no number: they tell it differently and they give different types.  Nevertheless the
signs in a tree can be replaced by subtractions without changing what is accepted.  As long as
nothing is found, both rules give the same type, and what comes after the first finding cannot undo
it.

## Main definitions

* `Idyl.Expr.desugar`, `Idyl.Function.desugar`, `Idyl.Program.desugar` — trees without minus signs.
* `Idyl.Typed.Agrees`, `Idyl.Walked.Agrees` — the same verdict, and the same answer if it is good.
* `Idyl.Function.sites` — the expressions of a function with the scopes they are checked in.

## Main results

* `Idyl.checkExpr_desugar`, `Idyl.checkStmt_desugar` — phrases.
* `Idyl.type_node_desugar` — the types of all nodes of an accepted expression.
* `Idyl.desugar_accepted_iff` — programs.
-/

set_option autoImplicit false

namespace Idyl

/-! ## Trees without minus signs -/

mutual

/-- An expression in which each minus sign in front of an operand is a subtraction from zero, as it
is read from a text.  The place of the zero is the place of the sign, which a tree does not tell by
itself. -/
def Expr.desugar (sign : Span → Span) : Expr → Expr
  | .lit value s => .lit value s
  | .var name s => .var name s
  | .assign name value s => .assign name (value.desugar sign) s
  | .binary op left right s => .binary op (left.desugar sign) (right.desugar sign) s
  | .unary .neg operand s => .join .sub (.lit (.int 0) (sign s)) (operand.desugar sign)
  | .unary .not operand s => .unary .not (operand.desugar sign) s
  | .call callee args s => .call (callee.desugar sign) (Expr.desugarAll sign args) s
  | .member object name s => .member (object.desugar sign) name s

/-- Expressions without minus signs. -/
def Expr.desugarAll (sign : Span → Span) : List Expr → List Expr
  | [] => []
  | e :: es => e.desugar sign :: Expr.desugarAll sign es

end

mutual

/-- A statement without minus signs. -/
def Stmt.desugar (sign : Span → Span) : Stmt → Stmt
  | .declare type name init s => .declare type name (init.desugar sign) s
  | .eval e s => .eval (e.desugar sign) s
  | .block body s => .block (Stmt.desugarAll sign body) s
  | .ifThen condition thenBranch s => .ifThen (condition.desugar sign) (thenBranch.desugar sign) s
  | .ifElse condition thenBranch elseBranch s =>
    .ifElse (condition.desugar sign) (thenBranch.desugar sign) (elseBranch.desugar sign) s
  | .while_ condition body s => .while_ (condition.desugar sign) (body.desugar sign) s
  | .return_ (some e) s => .return_ (some (e.desugar sign)) s
  | .return_ none s => .return_ none s

/-- Statements without minus signs. -/
def Stmt.desugarAll (sign : Span → Span) : List Stmt → List Stmt
  | [] => []
  | s :: ss => s.desugar sign :: Stmt.desugarAll sign ss

end

/-- A function without minus signs. -/
def Function.desugar (sign : Span → Span) (f : Function) : Function :=
  { f with body := ⟨Stmt.desugarAll sign f.body.body, f.body.span⟩ }

/-- A program without minus signs. -/
def Program.desugar (sign : Span → Span) (p : Program) : Program :=
  { p with functions := p.functions.map (Function.desugar sign), main := p.main.desugar sign }

section Trees

variable (sign : Span → Span)

/-- There are as many arguments as before. -/
@[simp] lemma Expr.length_desugarAll (es : List Expr) :
    (Expr.desugarAll sign es).length = es.length := by
  induction es with
  | nil => rfl
  | cons e es ih => rw [desugarAll, List.length_cons, List.length_cons, ih]

/-- Desugaring brings up no form but that of a subtraction. -/
lemma Expr.form_desugar_ne {e : Expr} {k : Expr.Form} (hk : k ≠ .binary) (h : e.form ≠ k) :
    (e.desugar sign).form ≠ k := by
  cases e with
  | unary op operand s =>
    cases op with
    | neg => exact hk.symm
    | not => exact h
  | _ => exact h

mutual

/-- Each node of an expression has its counterpart in the expression without signs, in the same
order; what is new there are the zeros. -/
lemma Expr.map_desugar_nodes_sublist : ∀ e : Expr,
    (e.nodes.map (Expr.desugar sign)).Sublist (e.desugar sign).nodes := by
  intro e
  cases e with
  | lit value s => exact .refl _
  | var name s => exact .refl _
  | assign name value s => exact (map_desugar_nodes_sublist value).cons_cons _
  | binary op left right s =>
    rw [nodes, List.map_cons, List.map_append]
    exact ((map_desugar_nodes_sublist left).append (map_desugar_nodes_sublist right)).cons_cons _
  | unary op operand s =>
    cases op with
    | neg => exact ((map_desugar_nodes_sublist operand).cons _).cons_cons _
    | not => exact (map_desugar_nodes_sublist operand).cons_cons _
  | call callee args s =>
    rw [nodes, List.map_cons, List.map_append]
    exact ((map_desugar_nodes_sublist callee).append
      (map_desugar_nodesAll_sublist args)).cons_cons _
  | member object name s => exact (map_desugar_nodes_sublist object).cons_cons _

/-- The nodes of the arguments are still there. -/
lemma Expr.map_desugar_nodesAll_sublist : ∀ es : List Expr,
    ((Expr.nodesAll es).map (Expr.desugar sign)).Sublist
      (Expr.nodesAll (Expr.desugarAll sign es)) := by
  intro es
  cases es with
  | nil => exact .refl _
  | cons e es =>
    rw [nodesAll, List.map_append]
    exact (map_desugar_nodes_sublist e).append (map_desugar_nodesAll_sublist es)

end

end Trees

/-! ## Expressions -/

/-- Two answers of which both are good or neither is, and which give the same type if they are. -/
structure Typed.Agrees (t t' : Typed) : Prop where
  accepted_iff : t'.findings = [] ↔ t.findings = []
  type_eq : t.findings = [] → t'.type = t.type

/-- Two expressions that are both rejected. -/
lemma Typed.Agrees.of_rejected {t t' : Typed} (h : t.findings ≠ []) (h' : t'.findings ≠ []) :
    t.Agrees t' :=
  ⟨iff_of_false h' h, fun hnil => absurd hnil h⟩

/-- Where one of both is accepted, both have the same type. -/
lemma Typed.Agrees.eq_of_accepted {t t' : Typed} (h : t.Agrees t') (hnil : t.findings = []) :
    t' = t := by
  obtain ⟨type, found⟩ := t
  obtain ⟨type', found'⟩ := t'
  obtain rfl : type' = type := h.type_eq hnil
  obtain rfl : found = [] := hnil
  obtain rfl : found' = [] := h.accepted_iff.2 rfl
  rfl

/-- What is looked at second matters only if nothing was found before. -/
lemma append_eq_nil_congr {α : Type} {as as' bs bs' : List α} (has : as' = [] ↔ as = [])
    (hbs : as = [] → (bs' = [] ↔ bs = [])) : as' ++ bs' = [] ↔ as ++ bs = [] := by
  rw [List.append_eq_nil_iff, List.append_eq_nil_iff, has]
  exact and_congr_right hbs

/-- The rule for a minus sign and the rule for a subtraction from zero accept the same operands, and
give the same type to an operand that they accept. -/
lemma checkUnary_neg_agrees (t : Option Ty) (s s' : Span) :
    (⟨t, checkUnary .neg t s⟩ : Typed).Agrees (checkBinary .sub (some .int) t s') := by
  have hzero : isNumber (some .int) = true := rfl
  have hneg : checkUnary .neg t s = [] ↔ isNumber t = true := by
    by_cases h : isNumber t <;> simp [checkUnary, h]
  have hsub : (checkBinary .sub (some .int) t s').findings = [] ↔ isNumber t = true := by
    by_cases h : isNumber t <;>
      simp [checkBinary, BinaryOp.isComparison, BinaryOp.isArithmetic, hzero, h]
  refine ⟨hsub.trans hneg.symm, fun h => ?_⟩
  obtain ⟨u, rfl, hu⟩ := Typing.isNumber_eq_true_iff.1 (hneg.1 h)
  cases hu <;> rfl

section Expressions

variable (sign : Span → Span) (g : Globals) (scope : Scope)

mutual

/-- **Expressions without signs** are accepted as before, with the same type.

**Proof sketch.** By recursion on the expression.  As long as the parts are accepted they have the
same types, so the same is found at the node itself; a part that is not accepted is enough to reject
both expressions. -/
lemma checkExpr_desugar : ∀ e : Expr,
    (checkExpr g scope e).Agrees (checkExpr g scope (e.desugar sign)) := by
  intro e
  cases e with
  | lit value s => exact ⟨.rfl, fun _ => rfl⟩
  | var name s => exact ⟨.rfl, fun _ => rfl⟩
  | assign name value s =>
    have hvalue := checkExpr_desugar value
    rw [Expr.desugar, checkExpr, checkExpr]
    cases scope.typeOf? name with
    | none => exact .of_rejected (by simp) (by simp)
    | some t =>
      refine ⟨append_eq_nil_congr hvalue.accepted_iff fun hnil => ?_, fun _ => rfl⟩
      rw [hvalue.type_eq hnil, Typing.checkFits_eq_nil_iff, Typing.checkFits_eq_nil_iff]
  | binary op left right s =>
    have hleft := checkExpr_desugar left
    have hright := checkExpr_desugar right
    have hboth := append_eq_nil_congr hleft.accepted_iff fun _ => hright.accepted_iff
    rw [Expr.desugar, checkExpr, checkExpr]
    refine ⟨append_eq_nil_congr hboth fun hnil => ?_, fun hnil => ?_⟩
    · obtain ⟨hl, hr⟩ := List.append_eq_nil_iff.1 hnil
      rw [hleft.type_eq hl, hright.type_eq hr]
    · obtain ⟨hlr, -⟩ := List.append_eq_nil_iff.1 hnil
      obtain ⟨hl, hr⟩ := List.append_eq_nil_iff.1 hlr
      dsimp only
      rw [hleft.type_eq hl, hright.type_eq hr]
  | unary op operand s =>
    have hoperand := checkExpr_desugar operand
    cases op with
    | neg =>
      have hrules := checkUnary_neg_agrees (checkExpr g scope operand).type s
        ((sign s).merge (operand.desugar sign).span)
      -- the zero is a number and nothing is found in it, so the operand alone decides
      rw [Expr.desugar, Expr.join, checkExpr, checkExpr, checkExpr]
      refine ⟨append_eq_nil_congr hoperand.accepted_iff fun hnil => ?_, fun hnil => ?_⟩
      · rw [hoperand.type_eq hnil]
        exact hrules.accepted_iff
      · obtain ⟨ho, hop⟩ := List.append_eq_nil_iff.1 hnil
        dsimp only
        rw [hoperand.type_eq ho]
        exact hrules.type_eq hop
    | not =>
      rw [Expr.desugar, checkExpr, checkExpr]
      refine ⟨append_eq_nil_congr hoperand.accepted_iff fun hnil => ?_, fun hnil => ?_⟩
      · rw [hoperand.type_eq hnil]
      · exact hoperand.type_eq (List.append_eq_nil_iff.1 hnil).1
  | member object name s =>
    have hobject := checkExpr_desugar object
    rw [Expr.desugar, checkExpr, checkExpr]
    refine ⟨hobject.accepted_iff, fun hnil => ?_⟩
    dsimp only
    rw [hobject.type_eq hnil]
  | call callee args s =>
    have hargs := checkArgs_desugar args
    cases callee with
    | var function s' =>
      rw [Expr.desugar, Expr.desugar, checkExpr, checkExpr, Expr.length_desugarAll]
      exact ⟨append_eq_nil_congr hargs fun _ => .rfl, fun _ => rfl⟩
    | member object name s' =>
      by_cases hobject : object.form = .var
      · obtain ⟨module, s'', rfl⟩ := Expr.exists_of_form_eq_var hobject
        rw [Expr.desugar, Expr.desugar, Expr.desugar, checkExpr, checkExpr,
          Expr.length_desugarAll]
        exact ⟨append_eq_nil_congr hargs fun _ => .rfl, fun _ => rfl⟩
      · have hobject' := Expr.form_desugar_ne sign (by nofun) hobject
        -- the call of a member is a fault with and without signs in the object
        rw [Expr.desugar, Expr.desugar, checkExpr_call_member _ _ hobject,
          checkExpr_call_member _ _ hobject']
        exact .of_rejected (by simp) (by simp)
    | _ =>
      rw [Expr.desugar, checkExpr_call_other _ _ (by nofun) (by nofun),
        checkExpr_call_other _ _ (Expr.form_desugar_ne sign (by nofun) (by nofun))
          (Expr.form_desugar_ne sign (by nofun) (by nofun))]
      exact .of_rejected (by simp) (by simp)

/-- Arguments are accepted with signs if they are without. -/
lemma checkArgs_desugar : ∀ es : List Expr,
    checkArgs g scope (Expr.desugarAll sign es) = [] ↔ checkArgs g scope es = [] := by
  intro es
  cases es with
  | nil => exact .rfl
  | cons e es =>
    rw [Expr.desugarAll, checkArgs, checkArgs]
    exact append_eq_nil_congr (checkExpr_desugar e).accepted_iff fun _ => checkArgs_desugar es

end

mutual

/-- **All nodes of an accepted expression** have the same types as their counterparts without signs.

**Proof sketch.** By recursion on the expression: its parts are accepted expressions again, except
for the callee of a call, which is a name or a member of a module and holds no sign. -/
lemma type_node_desugar : ∀ e : Expr, (checkExpr g scope e).findings = [] → ∀ x ∈ e.nodes,
    (checkExpr g scope (x.desugar sign)).type = (checkExpr g scope x).type := by
  intro e h x hx
  have hself := (checkExpr_desugar sign g scope e).type_eq h
  cases e with
  | lit value s =>
    obtain rfl := List.mem_singleton.1 hx
    exact hself
  | var name s =>
    obtain rfl := List.mem_singleton.1 hx
    exact hself
  | assign name value s =>
    rcases List.mem_cons.1 hx with rfl | hx
    · exact hself
    · rw [checkExpr] at h
      cases ht : scope.typeOf? name with
      | none => simp [ht] at h
      | some t =>
        simp only [ht] at h
        exact type_node_desugar value (List.append_eq_nil_iff.1 h).1 x hx
  | binary op left right s =>
    rcases List.mem_cons.1 hx with rfl | hx
    · exact hself
    · rw [checkExpr] at h
      obtain ⟨hlr, -⟩ := List.append_eq_nil_iff.1 h
      obtain ⟨hl, hr⟩ := List.append_eq_nil_iff.1 hlr
      rcases List.mem_append.1 hx with hx | hx
      · exact type_node_desugar left hl x hx
      · exact type_node_desugar right hr x hx
  | unary op operand s =>
    rcases List.mem_cons.1 hx with rfl | hx
    · exact hself
    · rw [checkExpr] at h
      exact type_node_desugar operand (List.append_eq_nil_iff.1 h).1 x hx
  | member object name s =>
    rcases List.mem_cons.1 hx with rfl | hx
    · exact hself
    · rw [checkExpr] at h
      exact type_node_desugar object h x hx
  | call callee args s =>
    rcases List.mem_cons.1 hx with rfl | hx
    · exact hself
    cases callee with
    | var function s' =>
      rw [checkExpr] at h
      rcases List.mem_append.1 hx with hx | hx
      · obtain rfl := List.mem_singleton.1 hx
        rfl
      · exact type_nodeAll_desugar args (List.append_eq_nil_iff.1 h).1 x hx
    | member object name s' =>
      by_cases hobject : object.form = .var
      · obtain ⟨module, s'', rfl⟩ := Expr.exists_of_form_eq_var hobject
        rw [checkExpr] at h
        rcases List.mem_append.1 hx with hx | hx
        · rcases List.mem_cons.1 hx with rfl | hx
          · rfl
          · obtain rfl := List.mem_singleton.1 hx
            rfl
        · exact type_nodeAll_desugar args (List.append_eq_nil_iff.1 h).1 x hx
      · simp [checkExpr_call_member g scope hobject] at h
    | _ => simp [checkExpr] at h

/-- The nodes of accepted arguments keep their types. -/
lemma type_nodeAll_desugar : ∀ es : List Expr, checkArgs g scope es = [] →
    ∀ x ∈ Expr.nodesAll es,
      (checkExpr g scope (x.desugar sign)).type = (checkExpr g scope x).type := by
  intro es h x hx
  cases es with
  | nil => simp [Expr.nodesAll] at hx
  | cons e es =>
    rw [checkArgs] at h
    obtain ⟨he, hes⟩ := List.append_eq_nil_iff.1 h
    rcases List.mem_append.1 hx with hx | hx
    · exact type_node_desugar e he x hx
    · exact type_nodeAll_desugar es hes x hx

end

end Expressions

/-! ## Statements -/

/-- Two answers of which both are good or neither is, and after which the same variables are known
if they are. -/
structure Walked.Agrees (w w' : Walked) : Prop where
  accepted_iff : w'.findings = [] ↔ w.findings = []
  scope_eq : w.findings = [] → w'.scope = w.scope

/-- Two statements that are both rejected. -/
lemma Walked.Agrees.of_rejected {w w' : Walked} (h : w.findings ≠ []) (h' : w'.findings ≠ []) :
    w.Agrees w' :=
  ⟨iff_of_false h' h, fun hnil => absurd hnil h⟩

mutual

/-- The expressions that a statement is made of, in the order of the check, each with the scope it
is checked in. -/
def Stmt.sites (g : Globals) (scope : Scope) : Stmt → List (Expr × Scope)
  | .declare _ _ init _ => [(init, scope)]
  | .eval e _ => [(e, scope)]
  | .block body _ => Stmt.sitesAll g scope body
  | .ifThen condition thenBranch _ => (condition, scope) :: thenBranch.sites g scope
  | .ifElse condition thenBranch elseBranch _ =>
    (condition, scope) ::
      (thenBranch.sites g scope ++ elseBranch.sites g (checkStmt g scope thenBranch).scope)
  | .while_ condition body _ => (condition, scope) :: body.sites g scope
  | .return_ (some e) _ => [(e, scope)]
  | .return_ none _ => []

/-- The expressions that statements are made of, with their scopes. -/
def Stmt.sitesAll (g : Globals) (scope : Scope) : List Stmt → List (Expr × Scope)
  | [] => []
  | s :: ss => s.sites g scope ++ Stmt.sitesAll g (checkStmt g scope s).scope ss

end

section Statements

variable (sign : Span → Span) (g : Globals)

/-- A declaration binds its name under the same conditions. -/
lemma checkDeclare_desugar (scope : Scope) (type : Ty) (name : String) (init : Expr) (s : Span) :
    (checkDeclare g scope type name init s).Agrees
      (checkDeclare g scope type name (init.desugar sign) s) := by
  have hinit := checkExpr_desugar sign g scope init
  by_cases hnil : (checkExpr g scope init).findings = []
  · -- the first value gets the same answer, and the declaration takes the same branch
    unfold checkDeclare
    rw [hinit.eq_of_accepted hnil]
    dsimp only
    split
    · exact ⟨.rfl, fun _ => rfl⟩
    · split
      · exact ⟨.rfl, fun _ => rfl⟩
      · cases (checkExpr g scope init).type with
        | none => exact ⟨.rfl, fun _ => rfl⟩
        | some v =>
          dsimp only
          split
          · exact ⟨.rfl, fun _ => rfl⟩
          · exact .of_rejected (by simp) (by simp)
  · have hnil' := mt hinit.accepted_iff.1 hnil
    exact .of_rejected (fun h => hnil (Typing.checkDeclare_cases h).2.2.1)
      (fun h => hnil' (Typing.checkDeclare_cases h).2.2.1)

/-- A condition in front of a statement. -/
lemma Walked.Agrees.after {w w' : Walked} (h : w.Agrees w') {found found' : List Finding}
    (hfound : found' = [] ↔ found = []) :
    (⟨w.scope, found ++ w.findings⟩ : Walked).Agrees ⟨w'.scope, found' ++ w'.findings⟩ :=
  ⟨append_eq_nil_congr hfound fun _ => h.accepted_iff,
    fun hnil => h.scope_eq (List.append_eq_nil_iff.1 hnil).2⟩

/-- Two statements in a row, of which the second is checked with what is known after the first. -/
lemma Walked.Agrees.andThen {w w' : Walked} (h : w.Agrees w') {next next' : Scope → Walked}
    (hnext : ∀ scope, (next scope).Agrees (next' scope)) :
    (⟨(next w.scope).scope, w.findings ++ (next w.scope).findings⟩ : Walked).Agrees
      ⟨(next' w'.scope).scope, w'.findings ++ (next' w'.scope).findings⟩ := by
  refine ⟨append_eq_nil_congr h.accepted_iff fun hnil => ?_, fun hnil => ?_⟩
  · rw [h.scope_eq hnil]
    exact (hnext w.scope).accepted_iff
  · obtain ⟨hfirst, hsecond⟩ := List.append_eq_nil_iff.1 hnil
    dsimp only
    rw [h.scope_eq hfirst]
    exact (hnext w.scope).scope_eq hsecond

mutual

/-- **Statements without signs** are accepted as before, and the same variables are known after
them. -/
lemma checkStmt_desugar : ∀ (scope : Scope) (s : Stmt),
    (checkStmt g scope s).Agrees (checkStmt g scope (s.desugar sign)) := by
  intro scope s
  cases s with
  | declare type name init s => exact checkDeclare_desugar sign g scope type name init s
  | eval e s => exact ⟨(checkExpr_desugar sign g scope e).accepted_iff, fun _ => rfl⟩
  | block body s => exact checkStmts_desugar scope body
  | ifThen condition thenBranch s =>
    exact (checkStmt_desugar scope thenBranch).after
      (checkExpr_desugar sign g scope condition).accepted_iff
  | ifElse condition thenBranch elseBranch s =>
    exact ((checkStmt_desugar scope thenBranch).after
      (checkExpr_desugar sign g scope condition).accepted_iff).andThen
        fun scope => checkStmt_desugar scope elseBranch
  | while_ condition body s =>
    exact (checkStmt_desugar scope body).after
      (checkExpr_desugar sign g scope condition).accepted_iff
  | return_ value s =>
    cases value with
    | none => exact ⟨.rfl, fun _ => rfl⟩
    | some e => exact ⟨(checkExpr_desugar sign g scope e).accepted_iff, fun _ => rfl⟩

/-- Statements are accepted with signs if they are without, and declare the same. -/
lemma checkStmts_desugar : ∀ (scope : Scope) (ss : List Stmt),
    (checkStmts g scope ss).Agrees (checkStmts g scope (Stmt.desugarAll sign ss)) := by
  intro scope ss
  cases ss with
  | nil => exact ⟨.rfl, fun _ => rfl⟩
  | cons s ss =>
    exact (checkStmt_desugar scope s).andThen fun scope => checkStmts_desugar scope ss

end

mutual

/-- The expressions of an accepted statement are checked in the same scopes with and without signs.

**Proof sketch.** By recursion on the statement; what is known after an accepted part is known after
its counterpart (`Idyl.checkStmt_desugar`). -/
lemma Stmt.sites_desugar : ∀ (scope : Scope) (s : Stmt), (checkStmt g scope s).findings = [] →
    (s.desugar sign).sites g scope =
      (s.sites g scope).map (Prod.map (Expr.desugar sign) id) := by
  intro scope s h
  cases s with
  | declare type name init s => rfl
  | eval e s => rfl
  | block body s => exact sitesAll_desugar scope body h
  | ifThen condition thenBranch s =>
    obtain ⟨-, ht⟩ := List.append_eq_nil_iff.1 h
    rw [desugar, sites, sites, List.map_cons, sites_desugar scope thenBranch ht]
    rfl
  | ifElse condition thenBranch elseBranch s =>
    obtain ⟨hct, he⟩ := List.append_eq_nil_iff.1 h
    obtain ⟨-, ht⟩ := List.append_eq_nil_iff.1 hct
    have hscope := (checkStmt_desugar sign g scope thenBranch).scope_eq ht
    rw [desugar, sites, sites, List.map_cons, List.map_append, hscope,
      sites_desugar scope thenBranch ht, sites_desugar _ elseBranch he]
    rfl
  | while_ condition body s =>
    obtain ⟨-, hb⟩ := List.append_eq_nil_iff.1 h
    rw [desugar, sites, sites, List.map_cons, sites_desugar scope body hb]
    rfl
  | return_ value s => cases value <;> rfl

/-- The expressions of accepted statements, with the scopes they stand in. -/
lemma Stmt.sitesAll_desugar : ∀ (scope : Scope) (ss : List Stmt),
    (checkStmts g scope ss).findings = [] →
      Stmt.sitesAll g scope (Stmt.desugarAll sign ss) =
        (Stmt.sitesAll g scope ss).map (Prod.map (Expr.desugar sign) id) := by
  intro scope ss h
  cases ss with
  | nil => rfl
  | cons s ss =>
    obtain ⟨hs, hss⟩ := List.append_eq_nil_iff.1 h
    have hscope := (checkStmt_desugar sign g scope s).scope_eq hs
    rw [desugarAll, sitesAll, sitesAll, List.map_append, hscope, sites_desugar scope s hs,
      sitesAll_desugar _ ss hss]

end

mutual

/-- The expressions of an accepted statement are accepted. -/
lemma Stmt.accepted_of_mem_sites : ∀ (scope : Scope) (s : Stmt),
    (checkStmt g scope s).findings = [] →
      ∀ x ∈ s.sites g scope, (checkExpr g x.2 x.1).findings = [] := by
  intro scope s h x hx
  cases s with
  | declare type name init s =>
    obtain rfl := List.mem_singleton.1 hx
    exact (Typing.checkDeclare_cases h).2.2.1
  | eval e s =>
    obtain rfl := List.mem_singleton.1 hx
    exact h
  | block body s => exact accepted_of_mem_sitesAll scope body h x hx
  | ifThen condition thenBranch s =>
    obtain ⟨hc, ht⟩ := List.append_eq_nil_iff.1 h
    rcases List.mem_cons.1 hx with rfl | hx
    · exact hc
    · exact accepted_of_mem_sites scope thenBranch ht x hx
  | ifElse condition thenBranch elseBranch s =>
    obtain ⟨hct, he⟩ := List.append_eq_nil_iff.1 h
    obtain ⟨hc, ht⟩ := List.append_eq_nil_iff.1 hct
    rcases List.mem_cons.1 hx with rfl | hx
    · exact hc
    · rcases List.mem_append.1 hx with hx | hx
      · exact accepted_of_mem_sites scope thenBranch ht x hx
      · exact accepted_of_mem_sites _ elseBranch he x hx
  | while_ condition body s =>
    obtain ⟨hc, hb⟩ := List.append_eq_nil_iff.1 h
    rcases List.mem_cons.1 hx with rfl | hx
    · exact hc
    · exact accepted_of_mem_sites scope body hb x hx
  | return_ value s =>
    cases value with
    | none => simp [sites] at hx
    | some e =>
      obtain rfl := List.mem_singleton.1 hx
      exact h

/-- The expressions of accepted statements are accepted where they stand. -/
lemma Stmt.accepted_of_mem_sitesAll : ∀ (scope : Scope) (ss : List Stmt),
    (checkStmts g scope ss).findings = [] →
      ∀ x ∈ Stmt.sitesAll g scope ss, (checkExpr g x.2 x.1).findings = [] := by
  intro scope ss h x hx
  cases ss with
  | nil => simp [sitesAll] at hx
  | cons s ss =>
    obtain ⟨hs, hss⟩ := List.append_eq_nil_iff.1 h
    rcases List.mem_append.1 hx with hx | hx
    · exact accepted_of_mem_sites scope s hs x hx
    · exact accepted_of_mem_sitesAll _ ss hss x hx

end

end Statements

/-! ## Functions and programs -/

/-- The expressions of a function, in the order of the check, each with the scope it is checked
in. -/
def Function.sites (g : Globals) (f : Function) : List (Expr × Scope) :=
  Stmt.sitesAll g (checkParams {} f.params).scope f.body.body

section Programs

variable (sign : Span → Span)

/-- A function is accepted with signs if it is without. -/
lemma checkFunction_desugar (g : Globals) (f : Function) :
    checkFunction g (f.desugar sign) = [] ↔ checkFunction g f = [] :=
  append_eq_nil_congr .rfl fun _ => (checkStmts_desugar sign g _ f.body.body).accepted_iff

/-- Functions keep their headers. -/
lemma Program.headers_desugar (p : Program) :
    (p.desugar sign).functions.map Function.header = p.functions.map Function.header :=
  List.map_map

/-- The same functions and libraries can be called. -/
lemma Program.globals_desugar (p : Program) (libraries : NameSet) :
    ((p.desugar sign).info libraries).globals = (p.info libraries).globals :=
  congrArg (Globals.mk · libraries) (names_eq_of_headers (p.headers_desugar sign))

/-- The functions of the program, one by one. -/
lemma Program.allFunctions_desugar (p : Program) :
    (p.desugar sign).allFunctions = p.allFunctions.map (Function.desugar sign) := by
  rw [allFunctions, allFunctions, List.map_append]
  rfl

/-- **A minus sign is a subtraction from zero.**  If every minus sign in a program is replaced by a
subtraction from zero, whatever place the zeros get, then the program is accepted or not as before.
In an accepted program the same expressions are checked in the same scopes, and each node of them
has the same type as its counterpart.

**Proof sketch.** The names of the functions stay, so it is enough to compare function by function
(`Idyl.checkFunction_desugar`).  The expressions of an accepted function are accepted, so the types
of their nodes are those of `Idyl.type_node_desugar`. -/
theorem desugar_accepted_iff (p : Program) (libraries : NameSet) :
    (checkProgram (p.desugar sign) libraries = [] ↔ checkProgram p libraries = []) ∧
    (checkProgram p libraries = [] → ∀ f ∈ p.allFunctions,
      (f.desugar sign).sites ((p.desugar sign).info libraries).globals =
        (f.sites (p.info libraries).globals).map (Prod.map (Expr.desugar sign) id) ∧
      ∀ e scope, (e, scope) ∈ f.sites (p.info libraries).globals →
        (e.nodes.map (Expr.desugar sign)).Sublist (e.desugar sign).nodes ∧
        ∀ x ∈ e.nodes,
          (checkExpr ((p.desugar sign).info libraries).globals scope (x.desugar sign)).type =
            (checkExpr (p.info libraries).globals scope x).type) := by
  constructor
  · rw [checkProgram_eq_of_headers (p := p) libraries (p.headers_desugar sign) rfl,
      checkProgram_eq_of_headers (p := p) libraries rfl rfl]
    refine append_eq_nil_congr .rfl fun _ => ?_
    rw [p.allFunctions_desugar, List.flatMap_eq_nil_iff, List.flatMap_eq_nil_iff,
      List.forall_mem_map]
    refine forall₂_congr fun f _ => ?_
    rw [Function.errors_eq, Function.errors_eq, List.map_eq_nil_iff, List.map_eq_nil_iff]
    exact checkFunction_desugar sign _ f
  · intro h f hf
    rw [p.globals_desugar sign libraries]
    obtain ⟨-, hbody⟩ := List.append_eq_nil_iff.1 (Typing.checkFunction_eq_nil_of_mem h hf)
    refine ⟨Stmt.sitesAll_desugar sign _ _ f.body.body hbody, fun e scope hmem => ?_⟩
    have he := Stmt.accepted_of_mem_sitesAll _ _ f.body.body hbody (e, scope) hmem
    exact ⟨e.map_desugar_nodes_sublist sign, type_node_desugar sign _ scope e he⟩

end Programs

/-- A program with minus signs in front of a number, of a variable and of another sign. -/
def negating : Program where
  imports := []
  functions := []
  main :=
    { name := "main", returns := .void, params := [], span := {}
      body :=
        { span := {}
          body := [.declare .float "x" (.unary .neg (.lit (.int 1) {}) {}) {},
            .eval (.assign "x" (.unary .neg (.unary .neg (.var "x" {}) {}) {}) {}) {}] } }
  file := "a.idyl"

/-- The inner one of two signs, in front of a variable that was declared with a third one, gives the
type of the variable as a sign and as a subtraction. -/
theorem desugar_accepted_iff_negating :
    checkProgram negating .empty = [] ∧
      checkProgram (negating.desugar id) .empty = [] ∧
      negating.main ∈ negating.allFunctions ∧
      (checkExpr ((negating.desugar id).info .empty).globals ⟨[⟨"x", .float⟩]⟩
        ((Expr.unary .neg (.var "x" {}) {}).desugar id)).type = some .float := by
  have h : checkProgram negating .empty = [] := by decide
  have hmain : negating.main ∈ negating.allFunctions := by simp [Program.allFunctions]
  obtain ⟨hiff, htypes⟩ := desugar_accepted_iff id negating .empty
  have hsite : (Expr.assign "x" (.unary .neg (.unary .neg (.var "x" {}) {}) {}) {},
      (⟨[⟨"x", .float⟩]⟩ : Scope)) ∈ negating.main.sites (negating.info .empty).globals :=
    .tail _ (.head _)
  refine ⟨h, hiff.2 h, hmain, ((htypes h negating.main hmain).2 _ _ hsite).2 _ ?_⟩
  exact .tail _ (.tail _ (.head _))

end Idyl
