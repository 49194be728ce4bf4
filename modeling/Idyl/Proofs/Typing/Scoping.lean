import Mathlib
import Idyl.Proofs.Typing.Accepts

/-!
# Variables are declared before they are used

The check walks over a function once, in the order of the text, and carries the variables that are
known along.  In an accepted program every variable that the walk comes to is a parameter of the
function, or was declared in the same function before; and the check takes it to have the type
that it was declared with.

A declaration is passed at its end, behind its first value.  So what was declared before a place is
what was passed before it, and a variable is not known in its own first value.

## Main definitions

* `Idyl.Use`, `Idyl.Expr.uses` — the variables that an expression reads or assigns to.
* `Idyl.Visit`, `Idyl.Function.walk` — uses and declarations in the order of the walk.
* `Idyl.Function.visits` — the same, each with the scope that the check comes to it with.
* `Idyl.Function.Declares` — where a variable of some name and type can come from.

## Main results

* `Idyl.Function.Backs.checkStmt` — a scope holds only what was declared before.
* `Idyl.exists_type_of_mem_uses` — in an accepted expression every use has a type.
* `Idyl.uses_declared` — the uses of variables in accepted programs.
-/

set_option autoImplicit false

namespace Idyl

/-! ## The walk over a function -/

/-- The use of a variable: its name, and the node that uses it, which is the variable itself or an
assignment to it. -/
structure Use where
  name : String
  node : Expr

mutual

/-- The uses of variables in an expression.  The name of a function that is called is no variable,
and neither is the module of a method that is called. -/
def Expr.uses : Expr → List Use
  | .lit .. => []
  | .var name s => [⟨name, .var name s⟩]
  | .assign name value s => ⟨name, .assign name value s⟩ :: value.uses
  | .binary _ left right _ => left.uses ++ right.uses
  | .unary _ operand _ => operand.uses
  | .call (.var ..) args _ => Expr.usesAll args
  | .call (.member (.var ..) ..) args _ => Expr.usesAll args
  | .call callee args _ => callee.uses ++ Expr.usesAll args
  | .member object _ _ => object.uses

/-- The uses of variables in expressions. -/
def Expr.usesAll : List Expr → List Use
  | [] => []
  | e :: es => e.uses ++ Expr.usesAll es

end

/-- What the walk over a function comes to: the use of a variable, or the end of a declaration. -/
inductive Visit where
  | use (u : Use)
  | declare (type : Ty) (name : String)

/-- The walk over an expression. -/
def Expr.walk (e : Expr) : List Visit := e.uses.map .use

mutual

/-- The walk over a statement. -/
def Stmt.walk : Stmt → List Visit
  | .declare type name init _ => init.walk ++ [.declare type name]
  | .eval e _ => e.walk
  | .block body _ => Stmt.walkAll body
  | .ifThen condition thenBranch _ => condition.walk ++ thenBranch.walk
  | .ifElse condition thenBranch elseBranch _ =>
    condition.walk ++ thenBranch.walk ++ elseBranch.walk
  | .while_ condition body _ => condition.walk ++ body.walk
  | .return_ (some e) _ => e.walk
  | .return_ none _ => []

/-- The walk over statements. -/
def Stmt.walkAll : List Stmt → List Visit
  | [] => []
  | s :: ss => s.walk ++ Stmt.walkAll ss

end

/-- The walk over a function. -/
def Function.walk (f : Function) : List Visit := Stmt.walkAll f.body.body

/-! ## The scopes of the check -/

/-- The walk over an expression that is checked in a scope. -/
def Expr.visits (scope : Scope) (e : Expr) : List (Visit × Scope) :=
  e.uses.map fun u => (.use u, scope)

mutual

/-- The walk over a statement, with the scope in which the check comes to each place. -/
def Stmt.visits (g : Globals) (scope : Scope) : Stmt → List (Visit × Scope)
  | .declare type name init _ => init.visits scope ++ [(.declare type name, scope)]
  | .eval e _ => e.visits scope
  | .block body _ => Stmt.visitsAll g scope body
  | .ifThen condition thenBranch _ => condition.visits scope ++ thenBranch.visits g scope
  | .ifElse condition thenBranch elseBranch _ =>
    condition.visits scope ++ thenBranch.visits g scope ++
      elseBranch.visits g (checkStmt g scope thenBranch).scope
  | .while_ condition body _ => condition.visits scope ++ body.visits g scope
  | .return_ (some e) _ => e.visits scope
  | .return_ none _ => []

/-- The walk over statements, with the scopes of the check. -/
def Stmt.visitsAll (g : Globals) (scope : Scope) : List Stmt → List (Visit × Scope)
  | [] => []
  | s :: ss => s.visits g scope ++ Stmt.visitsAll g (checkStmt g scope s).scope ss

end

/-- The walk over a function, with the scopes of the check. -/
def Function.visits (g : Globals) (f : Function) : List (Visit × Scope) :=
  Stmt.visitsAll g (checkParams {} f.params).scope f.body.body

/-- The uses in an expression are come to in their order. -/
lemma Expr.map_fst_visits (scope : Scope) (e : Expr) : (e.visits scope).map Prod.fst = e.walk := by
  rw [visits, List.map_map]
  rfl

mutual

/-- The uses and declarations of a statement are come to in their order. -/
lemma Stmt.map_fst_visits (g : Globals) : ∀ (scope : Scope) (s : Stmt),
    (s.visits g scope).map Prod.fst = s.walk := by
  intro scope s
  cases s with
  | declare type name init _ =>
    rw [visits, walk, List.map_append, init.map_fst_visits]
    rfl
  | eval e _ => rw [visits, walk, e.map_fst_visits]
  | block body _ => rw [visits, walk, map_fst_visitsAll]
  | ifThen condition thenBranch _ =>
    rw [visits, walk, List.map_append, condition.map_fst_visits, map_fst_visits]
  | ifElse condition thenBranch elseBranch _ =>
    rw [visits, walk, List.map_append, List.map_append, condition.map_fst_visits, map_fst_visits,
      map_fst_visits]
  | while_ condition body _ =>
    rw [visits, walk, List.map_append, condition.map_fst_visits, map_fst_visits]
  | return_ value _ =>
    cases value with
    | none => rfl
    | some e => rw [visits, walk, e.map_fst_visits]

/-- So are those of statements. -/
lemma Stmt.map_fst_visitsAll (g : Globals) : ∀ (scope : Scope) (ss : List Stmt),
    (visitsAll g scope ss).map Prod.fst = walkAll ss := by
  intro scope ss
  cases ss with
  | nil => rfl
  | cons s ss =>
    rw [visitsAll, walkAll, List.map_append, map_fst_visits, map_fst_visitsAll]

end

/-- The check comes to each use and to each declaration of a function once, in the order of the
walk. -/
lemma Function.map_fst_visits (g : Globals) (f : Function) :
    (f.visits g).map Prod.fst = f.walk := Stmt.map_fst_visitsAll g _ _

/-! ## A scope holds what was declared -/

/-- A variable of this name and type is a parameter of the function, or its declaration is among
those that were passed. -/
def Function.Declares (f : Function) (passed : List Visit) (name : String) (t : Ty) : Prop :=
  (∃ p ∈ f.params, p.name = name ∧ p.type = t) ∨ .declare t name ∈ passed

/-- All that a scope finds is declared. -/
def Function.Backs (f : Function) (passed : List Visit) (scope : Scope) : Prop :=
  ∀ name t, scope.typeOf? name = some t → f.Declares passed name t

namespace Function

variable {f : Function} {passed : List Visit} {scope : Scope} {g : Globals}

/-- What was declared stays declared. -/
lemma Declares.append {name : String} {t : Ty} (h : f.Declares passed name t)
    (more : List Visit) : f.Declares (passed ++ more) name t := by
  rcases h with h | h
  · exact .inl h
  · exact .inr (List.mem_append_left _ h)

namespace Backs

/-- What is known stays backed. -/
lemma append (h : f.Backs passed scope) (more : List Visit) : f.Backs (passed ++ more) scope :=
  fun name t ht => (h name t ht).append more

/-- A variable that is added has to be declared. -/
lemma bind (h : f.Backs passed scope) {b : Binding} (hb : f.Declares passed b.name b.type) :
    f.Backs passed (scope.bind b) := by
  intro name t ht
  rw [Typing.typeOf?_bind] at ht
  split at ht
  · next hname =>
    rw [← hname, ← Option.some.inj ht]
    exact hb
  · exact h name t ht

/-- The first scope of a function holds its parameters. -/
lemma checkParams (h : f.Backs passed scope) {ps : List Param} (hps : ∀ p ∈ ps, p ∈ f.params) :
    f.Backs passed (checkParams scope ps).scope := by
  induction ps generalizing scope with
  | nil => exact h
  | cons p ps ih =>
    obtain ⟨hp, hps⟩ := List.forall_mem_cons.1 hps
    rw [Idyl.checkParams]
    cases hlookup : scope.lookup p.name with
    | some old =>
      simp only [Scope.define, hlookup]
      exact ih h hps
    | none =>
      simp only [Scope.define, hlookup]
      have hdeclares : f.Declares passed p.name p.type := .inl ⟨p, hp, rfl, rfl⟩
      exact ih (h.bind hdeclares) hps

/-- A declaration adds its variable or leaves the scope as it is. -/
lemma checkDeclare (h : f.Backs passed scope) (type : Ty) (name : String) (init : Expr)
    (s : Span) :
    f.Backs (passed ++ (init.walk ++ [.declare type name]))
      (checkDeclare g scope type name init s).scope := by
  have hkept : f.Backs (passed ++ (init.walk ++ [.declare type name])) scope := h.append _
  have hdeclares : f.Declares (passed ++ (init.walk ++ [.declare type name])) name type :=
    .inr (by simp)
  -- only a name that is new, with a first value of a type that fits, gets into the scope
  unfold Idyl.checkDeclare
  dsimp only
  split_ifs
  · exact hkept
  · exact hkept
  · split
    · exact hkept
    · split_ifs
      · exact hkept.bind (b := ⟨name, type⟩) hdeclares
      · exact hkept

end Backs

mutual

/-- **A scope holds only what was declared**: if this is so before a statement, it is so behind it,
whether the statement is accepted or not.

**Proof sketch.** By recursion on the statement; only declarations change the scope. -/
lemma Backs.checkStmt : ∀ {passed : List Visit} {scope : Scope} (_ : f.Backs passed scope)
    (s : Stmt), f.Backs (passed ++ s.walk) (checkStmt g scope s).scope := by
  intro passed scope h s
  cases s with
  | declare type name init span => exact h.checkDeclare type name init span
  | eval e _ => exact h.append _
  | block body _ => exact Backs.checkStmts h body
  | ifThen condition thenBranch _ =>
    rw [Stmt.walk, ← List.append_assoc]
    exact Backs.checkStmt (h.append _) thenBranch
  | ifElse condition thenBranch elseBranch _ =>
    rw [Stmt.walk, ← List.append_assoc, ← List.append_assoc]
    exact Backs.checkStmt (Backs.checkStmt (h.append _) thenBranch) elseBranch
  | while_ condition body _ =>
    rw [Stmt.walk, ← List.append_assoc]
    exact Backs.checkStmt (h.append _) body
  | return_ value _ => cases value <;> exact h.append _

/-- **What is known behind statements** was declared in them or before. -/
lemma Backs.checkStmts : ∀ {passed : List Visit} {scope : Scope} (_ : f.Backs passed scope)
    (ss : List Stmt), f.Backs (passed ++ Stmt.walkAll ss) (checkStmts g scope ss).scope := by
  intro passed scope h ss
  cases ss with
  | nil => exact h.append _
  | cons s ss =>
    rw [Stmt.walkAll, ← List.append_assoc]
    exact Backs.checkStmts (Backs.checkStmt h s) ss

end

end Function

/-! ## Uses in accepted phrases -/

/-- The check finds a type for a variable, and gives it to the node that uses the variable. -/
def Use.HasType (g : Globals) (scope : Scope) (u : Use) (t : Ty) : Prop :=
  scope.typeOf? u.name = some t ∧ (checkExpr g scope u.node).type = some t

section Uses

variable {g : Globals} {scope : Scope}

mutual

/-- **In an accepted expression every use has a type.**

**Proof sketch.** By recursion on the expression.  A use of a variable that is not known is a
finding, and so is a call of anything else than a function or a method. -/
lemma exists_type_of_mem_uses : ∀ e : Expr, (checkExpr g scope e).findings = [] →
    ∀ u ∈ e.uses, ∃ t, u.HasType g scope t := by
  intro e h u hu
  cases e with
  | lit value s => simp [Expr.uses] at hu
  | var name s =>
    obtain rfl := List.mem_singleton.1 hu
    rw [checkExpr] at h
    cases ht : scope.typeOf? name with
    | none => simp [ht] at h
    | some t => exact ⟨t, ht, by rw [checkExpr, ht]⟩
  | assign name value s =>
    rw [checkExpr] at h
    cases ht : scope.typeOf? name with
    | none => simp [ht] at h
    | some t =>
      simp only [ht] at h
      rcases List.mem_cons.1 hu with rfl | hu
      · exact ⟨t, ht, by rw [checkExpr, ht]⟩
      · exact exists_type_of_mem_uses value (List.append_eq_nil_iff.1 h).1 u hu
  | binary op left right s =>
    rw [checkExpr] at h
    obtain ⟨hlr, -⟩ := List.append_eq_nil_iff.1 h
    obtain ⟨hl, hr⟩ := List.append_eq_nil_iff.1 hlr
    rcases List.mem_append.1 hu with hu | hu
    · exact exists_type_of_mem_uses left hl u hu
    · exact exists_type_of_mem_uses right hr u hu
  | unary op operand s =>
    rw [checkExpr] at h
    exact exists_type_of_mem_uses operand (List.append_eq_nil_iff.1 h).1 u hu
  | member object name s =>
    rw [checkExpr] at h
    exact exists_type_of_mem_uses object h u hu
  | call callee args s =>
    cases callee with
    | var name s' =>
      rw [checkExpr] at h
      exact exists_type_of_mem_usesAll args (List.append_eq_nil_iff.1 h).1 u hu
    | member object method s' =>
      cases object with
      | var module s'' =>
        rw [checkExpr] at h
        exact exists_type_of_mem_usesAll args (List.append_eq_nil_iff.1 h).1 u hu
      | _ => simp [checkExpr] at h
    | _ => simp [checkExpr] at h

/-- The variables in accepted arguments have types. -/
lemma exists_type_of_mem_usesAll : ∀ es : List Expr, checkArgs g scope es = [] →
    ∀ u ∈ Expr.usesAll es, ∃ t, u.HasType g scope t := by
  intro es h u hu
  cases es with
  | nil => simp [Expr.usesAll] at hu
  | cons e es =>
    rw [checkArgs] at h
    obtain ⟨he, hes⟩ := List.append_eq_nil_iff.1 h
    rcases List.mem_append.1 hu with hu | hu
    · exact exists_type_of_mem_uses e he u hu
    · exact exists_type_of_mem_usesAll es hes u hu

end

end Uses

namespace Function

/-- Every use on a walk has a type that its variable was declared with before, where `passed` are
the places that were passed before the walk. -/
def Resolves (g : Globals) (f : Function) (passed : List Visit) (vs : List (Visit × Scope)) :
    Prop :=
  ∀ before u scope after, vs = before ++ (.use u, scope) :: after →
    ∃ t, u.HasType g scope t ∧ f.Declares (passed ++ before.map Prod.fst) u.name t

variable {f : Function} {passed : List Visit} {g : Globals}

/-- Where nothing is come to, nothing is left open. -/
lemma Resolves.nil : f.Resolves g passed [] := by
  intro before u scope after h
  simp at h

/-- Walks are put together. -/
lemma Resolves.append {vs ws : List (Visit × Scope)} (hvs : f.Resolves g passed vs)
    (hws : f.Resolves g (passed ++ vs.map Prod.fst) ws) : f.Resolves g passed (vs ++ ws) := by
  intro before u scope after h
  rcases List.append_eq_append_iff.1 h with ⟨rest, rfl, hrest⟩ | ⟨rest, hvs', hrest⟩
  · obtain ⟨t, ht, hdeclares⟩ := hws rest u scope after hrest
    refine ⟨t, ht, ?_⟩
    rw [List.map_append, ← List.append_assoc]
    exact hdeclares
  · cases rest with
    | nil =>
      obtain ⟨t, ht, hdeclares⟩ := hws [] u scope after hrest.symm
      subst hvs'
      simp only [List.append_nil, List.map_nil] at hdeclares
      exact ⟨t, ht, hdeclares⟩
    | cons v rest =>
      obtain ⟨rfl, -⟩ := List.cons.inj hrest
      exact hvs before u scope rest hvs'

/-- A declaration by itself uses nothing. -/
lemma Resolves.declare (type : Ty) (name : String) (scope : Scope) :
    f.Resolves g passed [(.declare type name, scope)] := by
  intro before u scope' after h
  have hmem : (Visit.use u, scope') ∈ [(Visit.declare type name, scope)] := by rw [h]; simp
  simp at hmem

/-- The uses in an accepted expression, in a scope that holds only what was declared. -/
lemma Backs.resolves_expr {scope : Scope} (hb : f.Backs passed scope) {e : Expr}
    (h : (checkExpr g scope e).findings = []) : f.Resolves g passed (e.visits scope) := by
  intro before u scope' after hvisits
  have hmem : (Visit.use u, scope') ∈ e.visits scope := by rw [hvisits]; simp
  obtain ⟨v, hv, heq⟩ := List.mem_map.1 hmem
  obtain ⟨⟨rfl⟩, rfl⟩ := Prod.mk.inj heq
  obtain ⟨t, ht⟩ := exists_type_of_mem_uses e h u hv
  exact ⟨t, ht, (hb u.name t ht.1).append _⟩

mutual

/-- **The uses in an accepted statement.**

**Proof sketch.** By recursion on the statement.  Each part is walked in a scope that holds only
what was declared in the parts before it (`Backs.checkStmt`). -/
lemma Backs.resolves_stmt : ∀ {passed : List Visit} {scope : Scope} (_ : f.Backs passed scope)
    (s : Stmt), (Idyl.checkStmt g scope s).findings = [] →
      f.Resolves g passed (s.visits g scope) := by
  intro passed scope hb s h
  cases s with
  | declare type name init span =>
    obtain ⟨-, -, hinit, -⟩ := Typing.checkDeclare_cases h
    exact (hb.resolves_expr hinit).append (.declare type name scope)
  | eval e _ => exact hb.resolves_expr h
  | block body _ => exact Backs.resolves_stmts hb body h
  | ifThen condition thenBranch _ =>
    obtain ⟨hc, ht⟩ := List.append_eq_nil_iff.1 h
    refine (hb.resolves_expr hc).append ?_
    rw [condition.map_fst_visits]
    exact Backs.resolves_stmt (hb.append _) thenBranch ht
  | ifElse condition thenBranch elseBranch _ =>
    obtain ⟨hct, he⟩ := List.append_eq_nil_iff.1 h
    obtain ⟨hc, ht⟩ := List.append_eq_nil_iff.1 hct
    refine ((hb.resolves_expr hc).append ?_).append ?_
    · rw [condition.map_fst_visits]
      exact Backs.resolves_stmt (hb.append _) thenBranch ht
    · rw [List.map_append, condition.map_fst_visits, thenBranch.map_fst_visits,
        ← List.append_assoc]
      exact Backs.resolves_stmt (Backs.checkStmt (hb.append _) thenBranch) elseBranch he
  | while_ condition body _ =>
    obtain ⟨hc, hbody⟩ := List.append_eq_nil_iff.1 h
    refine (hb.resolves_expr hc).append ?_
    rw [condition.map_fst_visits]
    exact Backs.resolves_stmt (hb.append _) body hbody
  | return_ value _ =>
    cases value with
    | none => exact .nil
    | some e => exact hb.resolves_expr h

/-- **Accepted statements use what was declared before**, one after the other. -/
lemma Backs.resolves_stmts : ∀ {passed : List Visit} {scope : Scope} (_ : f.Backs passed scope)
    (ss : List Stmt), (Idyl.checkStmts g scope ss).findings = [] →
      f.Resolves g passed (Stmt.visitsAll g scope ss) := by
  intro passed scope hb ss h
  cases ss with
  | nil => exact .nil
  | cons s ss =>
    obtain ⟨hs, hss⟩ := List.append_eq_nil_iff.1 h
    refine (Backs.resolves_stmt hb s hs).append ?_
    rw [s.map_fst_visits]
    exact Backs.resolves_stmts (Backs.checkStmt hb s) ss hss

end

/-- The uses in an accepted function. -/
lemma resolves_of_checkFunction (h : checkFunction g f = []) : f.Resolves g [] (f.visits g) := by
  have hempty : f.Backs [] {} := by
    intro name t ht
    simp [Scope.typeOf?, Scope.lookup] at ht
  obtain ⟨-, hbody⟩ := List.append_eq_nil_iff.1 h
  exact Backs.resolves_stmts (hempty.checkParams fun p hp => hp) f.body.body hbody

end Function

/-! ## Programs -/

/-- **Variables are declared before they are used.**  The check of an accepted program comes to each
use and each declaration of a function in the order of the walk.  Whenever it comes to the use of a
variable, it finds a type for it; and this is the type of a parameter of that name of the same
function, or of a declaration of that name that was passed before in the same function.  A
declaration is passed behind its first value, so it does not count for the uses in that value.

**Proof sketch.** A function of an accepted program is accepted, and its first scope holds nothing
but its parameters. -/
theorem uses_declared {p : Program} {libraries : NameSet} (h : checkProgram p libraries = [])
    {f : Function} (hf : f ∈ p.allFunctions) :
    (f.visits (p.info libraries).globals).map Prod.fst = f.walk ∧
    ∀ before u scope after,
      f.visits (p.info libraries).globals = before ++ (.use u, scope) :: after →
        ∃ t, scope.typeOf? u.name = some t ∧
          (checkExpr (p.info libraries).globals scope u.node).type = some t ∧
          ((∃ param ∈ f.params, param.name = u.name ∧ param.type = t) ∨
            .declare t u.name ∈ before.map Prod.fst) := by
  have hfunction := Typing.checkFunction_eq_nil_of_mem h hf
  refine ⟨f.map_fst_visits _, fun before u scope after hvisits => ?_⟩
  obtain ⟨t, ⟨hscope, hnode⟩, hdeclares⟩ :=
    Function.resolves_of_checkFunction hfunction before u scope after hvisits
  exact ⟨t, hscope, hnode, hdeclares⟩

/-- A function that declares a variable in a branch, and assigns to a parameter inside the argument
of a call. -/
def nested : Function where
  name := "f"
  returns := .int
  params := [⟨.int, "n", {}⟩, ⟨.float, "x", {}⟩]
  body :=
    { span := {}
      body := [.ifThen (.binary .lt (.var "n" {}) (.var "x" {}) {})
          (.block [.declare .string "s" (.lit (.string "ab") {}) {}] {}) {},
        .eval (.call (.var "f" {}) [.assign "x" (.member (.var "s" {}) "length" {}) {}] {}) {}] }
  span := {}

/-- A program with this function. -/
def nesting : Program where
  imports := []
  functions := [nested]
  main := { name := "main", returns := .void, params := [], body := ⟨[], {}⟩, span := {} }
  file := "a.idyl"

/-- The string that is declared in a branch is known as a string behind it. -/
theorem uses_declared_nesting :
    checkProgram nesting .empty = [] ∧ nested ∈ nesting.allFunctions ∧
    ∃ before scope, nested.visits (nesting.info .empty).globals =
        before ++ [(.use ⟨"s", .var "s" {}⟩, scope)] ∧
      ∃ t, scope.typeOf? "s" = some t ∧
        (checkExpr (nesting.info .empty).globals scope (.var "s" {})).type = some t ∧
        ((∃ param ∈ nested.params, param.name = "s" ∧ param.type = t) ∨
          .declare t "s" ∈ before.map Prod.fst) := by
  have h : checkProgram nesting .empty = [] := by decide
  have hf : nested ∈ nesting.allFunctions := by simp [Program.allFunctions, nesting]
  have hlast : (nested.visits (nesting.info .empty).globals).drop 4 =
      [(.use ⟨"s", .var "s" {}⟩, ⟨[⟨"s", .string⟩, ⟨"x", .float⟩, ⟨"n", .int⟩]⟩)] := rfl
  have hvisits := (List.take_append_drop 4 (nested.visits (nesting.info .empty).globals)).symm
  rw [hlast] at hvisits
  exact ⟨h, hf, _, _, hvisits, (uses_declared h hf).2 _ _ _ _ hvisits⟩

end Idyl
