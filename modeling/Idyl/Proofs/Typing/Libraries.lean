import Mathlib
import Idyl.Proofs.Nodes
import Idyl.Proofs.Typing.Separate

/-!
# More libraries

A library is known to the check by its name, and a call of its methods is accepted whatever the
method and the arguments.  So an accepted program stays accepted next to more libraries.

A program that is not accepted can get other errors, though.  A call of a module that is not known
is an error and has no type, and a value without a type is taken for any variable.  Once the module
is known the call is `void`, which may not fit where it stands.  The errors stay the same if the
libraries that are added are not called.

## Main definitions

* `Idyl.Expr.calledModule?`, `Idyl.Program.modules` — the modules whose methods are called.

## Main results

* `Idyl.Typing.Types.mono`, `Idyl.Typing.Passes.mono` — the typing rules with more libraries.
* `Idyl.checkExpr_eq_of_settled`, `Idyl.checkStmt_eq_of_settled` — phrases that do not call what is
  added.
* `Idyl.more_libraries` — programs.
-/

set_option autoImplicit false

namespace Idyl

/-! ## Well-typed programs -/

namespace Typing

/-- The second has the same functions and at least the libraries of the first. -/
structure Callable.Grows (g g' : Callable) : Prop where
  functions_eq : g'.functions = g.functions
  libraries : ∀ m ∈ g.libraries, m ∈ g'.libraries

variable {g g' : Callable} {Γ : List Binding}

mutual

/-- **More libraries keep the types of expressions.**  Only the rule for calls of libraries asks for
them, and it asks that they are known. -/
lemma Types.mono (hg : g.Grows g') : ∀ {e : Expr} {t : Option Ty}, Types g Γ e t →
    Types g' Γ e t := by
  intro e t h
  cases h with
  | lit h => exact .lit h
  | var h => exact .var h
  | assign htarget hvalue hfits => exact .assign htarget (hvalue.mono hg) hfits
  | arithmetic hop hleft hright ht => exact .arithmetic hop (hleft.mono hg) (hright.mono hg) ht
  | comparison hop hleft hright => exact .comparison hop (hleft.mono hg) (hright.mono hg)
  | logical hop hleft hright => exact .logical hop (hleft.mono hg) (hright.mono hg)
  | not h => exact .not (h.mono hg)
  | neg h ht => exact .neg (h.mono hg) ht
  | stringLength h => exact .stringLength (h.mono hg)
  | member h hother => exact .member (h.mono hg) hother
  | enter h => exact .enter h
  | write hargs => exact .write (hargs.mono hg)
  | library hargs hother h => exact .library (hargs.mono hg) hother (hg.libraries _ h)
  | conversion h harg => exact .conversion h (harg.mono hg)
  | function hargs hother h => exact .function (hargs.mono hg) hother (hg.functions_eq ▸ h)

/-- Arguments stay well formed if more can be called. -/
lemma Arguments.mono (hg : g.Grows g') : ∀ {es : List Expr}, Arguments g Γ es →
    Arguments g' Γ es := by
  intro es h
  cases h with
  | nil => exact .nil
  | cons h hs => exact .cons (h.mono hg) (hs.mono hg)

end

mutual

/-- **More libraries keep statements well formed**, with the same variables declared. -/
lemma Passes.mono (hg : g.Grows g') : ∀ {Γ Γ' : List Binding} {s : Stmt}, Passes g Γ s Γ' →
    Passes g' Γ s Γ' := by
  intro Γ Γ' s h
  cases h with
  | declare hname hfresh hinit hfits => exact .declare hname hfresh (hinit.mono hg) hfits
  | declareUnknown hname hfresh hinit => exact .declareUnknown hname hfresh (hinit.mono hg)
  | eval h => exact .eval (h.mono hg)
  | block h => exact .block (h.mono hg)
  | ifThen hc ht => exact .ifThen (hc.mono hg) (ht.mono hg)
  | ifElse hc ht he => exact .ifElse (hc.mono hg) (ht.mono hg) (he.mono hg)
  | while_ hc hb => exact .while_ (hc.mono hg) (hb.mono hg)
  | returnNone => exact .returnNone
  | returnSome h => exact .returnSome (h.mono hg)

/-- Statements still pass if more can be called. -/
lemma PassesAll.mono (hg : g.Grows g') : ∀ {Γ Γ' : List Binding} {ss : List Stmt},
    PassesAll g Γ ss Γ' → PassesAll g' Γ ss Γ' := by
  intro Γ Γ' ss h
  cases h with
  | nil => exact .nil
  | cons h hs => exact .cons (h.mono hg) (hs.mono hg)

end

/-- A function stays well typed if more can be called. -/
lemma WellTypedFunction.mono (hg : g.Grows g') {f : Function} (h : WellTypedFunction g f) :
    WellTypedFunction g' f := by
  obtain ⟨Γ, hbody⟩ := h.body
  exact ⟨h.params, Γ, hbody.mono hg⟩

/-- More libraries keep programs well typed. -/
lemma WellTyped.mono {p : Program} {libraries libraries' : NameSet}
    (hlibraries : ∀ m ∈ libraries, m ∈ libraries') (h : WellTyped p libraries) :
    WellTyped p libraries' := by
  have hg : Callable.Grows ⟨p.functions.map (·.name), libraries⟩
      ⟨p.functions.map (·.name), libraries'⟩ := ⟨rfl, hlibraries⟩
  exact ⟨h.names, fun f hf => (h.functions f hf).mono hg, h.main.mono hg⟩

end Typing

/-! ## Modules that are called -/

/-- The module of a call `module.method(...)`. -/
def Expr.calledModule? : Expr → Option String
  | .call (.member (.var module _) _ _) _ _ => some module
  | _ => none

/-- All expressions in a program, at any depth. -/
def Program.exprs (p : Program) : List Expr :=
  p.allFunctions.flatMap fun f => f.stmts.flatMap fun s => s.exprs.flatMap Expr.nodes

/-- The modules whose methods are called in a program. -/
def Program.modules (p : Program) : List String := p.exprs.filterMap Expr.calledModule?

/-- A module that is called at an expression is the console, or a library of both or of neither. -/
def Expr.Settled (g g' : Globals) (e : Expr) : Prop :=
  ∀ m, e.calledModule? = some m → m = consoleModule ∨ (m ∈ g'.libraries ↔ m ∈ g.libraries)

section Settled

variable {g g' : Globals}

/-- A call of a method whose module both know or both do not know. -/
lemma checkMethod_eq_of_settled {module : String}
    (h : module = consoleModule ∨ (module ∈ g'.libraries ↔ module ∈ g.libraries))
    (method : String) (count : Nat) (s : Span) :
    checkMethod g' module method count s = checkMethod g module method count s := by
  unfold checkMethod
  rcases h with h | h
  · rw [if_pos h, if_pos h]
  · simp only [h]

/-- A call of a function asks for no library. -/
lemma checkNamed_eq_of_functions (hf : g'.functions = g.functions) (function : String)
    (count : Nat) (s : Span) :
    checkNamed g' function count s = checkNamed g function count s := by
  unfold checkNamed
  rw [hf]

mutual

/-- **Expressions** in which no module is called that only one of the two knows.

**Proof sketch.** By recursion on the expression; what is known besides the variables is asked only
in calls. -/
lemma checkExpr_eq_of_settled (hf : g'.functions = g.functions) (scope : Scope) : ∀ e : Expr,
    (∀ x ∈ e.nodes, x.Settled g g') → checkExpr g' scope e = checkExpr g scope e := by
  intro e h
  cases e with
  | lit value s => rfl
  | var name s => rfl
  | assign name value s =>
    have hvalue := checkExpr_eq_of_settled hf scope value fun x hx => h x (.tail _ hx)
    rw [checkExpr, checkExpr, hvalue]
  | binary op left right s =>
    have hleft := checkExpr_eq_of_settled hf scope left fun x hx =>
      h x (.tail _ (List.mem_append_left _ hx))
    have hright := checkExpr_eq_of_settled hf scope right fun x hx =>
      h x (.tail _ (List.mem_append_right _ hx))
    rw [checkExpr, checkExpr, hleft, hright]
  | unary op operand s =>
    have hoperand := checkExpr_eq_of_settled hf scope operand fun x hx => h x (.tail _ hx)
    rw [checkExpr, checkExpr, hoperand]
  | member object name s =>
    have hobject := checkExpr_eq_of_settled hf scope object fun x hx => h x (.tail _ hx)
    rw [checkExpr, checkExpr, hobject]
  | call callee args s =>
    have hargs := checkArgs_eq_of_settled hf scope args fun x hx =>
      h x (.tail _ (List.mem_append_right _ hx))
    cases callee with
    | var function s' =>
      rw [checkExpr, checkExpr, hargs, checkNamed_eq_of_functions hf]
    | member object name s' =>
      by_cases hobject : object.form = .var
      · obtain ⟨module, s'', rfl⟩ := Expr.exists_of_form_eq_var hobject
        -- the only place where the libraries are asked for
        rw [checkExpr, checkExpr, hargs,
          checkMethod_eq_of_settled (h _ (.head _) module rfl)]
      · have hinside := checkExpr_eq_of_settled hf scope object fun x hx =>
          h x (.tail _ (List.mem_append_left _ (.tail _ hx)))
        rw [checkExpr_call_member _ _ hobject, checkExpr_call_member _ _ hobject, hargs, hinside]
    | _ =>
      rw [checkExpr_call_other _ _ (by nofun) (by nofun),
        checkExpr_call_other _ _ (by nofun) (by nofun), hargs]

/-- Arguments without calls on which the libraries differ. -/
lemma checkArgs_eq_of_settled (hf : g'.functions = g.functions) (scope : Scope) :
    ∀ es : List Expr, (∀ x ∈ Expr.nodesAll es, x.Settled g g') →
      checkArgs g' scope es = checkArgs g scope es := by
  intro es h
  cases es with
  | nil => rfl
  | cons e es =>
    rw [checkArgs, checkArgs,
      checkExpr_eq_of_settled hf scope e fun x hx => h x (List.mem_append_left _ hx),
      checkArgs_eq_of_settled hf scope es fun x hx => h x (List.mem_append_right _ hx)]

end

/-- No module is called in the expressions of a statement that only one of the two knows. -/
def Stmt.Settled (g g' : Globals) (s : Stmt) : Prop :=
  ∀ e ∈ s.exprs, ∀ x ∈ e.nodes, x.Settled g g'

/-- A declaration without calls on which the libraries differ. -/
lemma checkDeclare_eq_of_settled (hf : g'.functions = g.functions) (scope : Scope) (type : Ty)
    (name : String) {init : Expr} (h : ∀ x ∈ init.nodes, x.Settled g g') (s : Span) :
    checkDeclare g' scope type name init s = checkDeclare g scope type name init s := by
  unfold checkDeclare
  rw [checkExpr_eq_of_settled hf scope init h]

mutual

/-- **Statements** in which no module is called that only one of the two knows. -/
lemma checkStmt_eq_of_settled (hf : g'.functions = g.functions) : ∀ (scope : Scope) (s : Stmt),
    (∀ t ∈ s.nodes, t.Settled g g') → checkStmt g' scope s = checkStmt g scope s := by
  intro scope s h
  cases s with
  | declare type name init s =>
    exact checkDeclare_eq_of_settled hf scope type name (h _ (.head _) init (.head _)) s
  | eval e s =>
    rw [checkStmt, checkStmt, checkExpr_eq_of_settled hf scope e (h _ (.head _) e (.head _))]
  | block body s => exact checkStmts_eq_of_settled hf scope body fun t ht => h t (.tail _ ht)
  | ifThen condition thenBranch s =>
    have hcond := checkExpr_eq_of_settled hf scope condition (h _ (.head _) condition (.head _))
    have hthen := checkStmt_eq_of_settled hf scope thenBranch fun t ht => h t (.tail _ ht)
    rw [checkStmt, checkStmt, hcond, hthen]
  | ifElse condition thenBranch elseBranch s =>
    have hcond := checkExpr_eq_of_settled hf scope condition (h _ (.head _) condition (.head _))
    have hthen := checkStmt_eq_of_settled hf scope thenBranch fun t ht =>
      h t (.tail _ (List.mem_append_left _ ht))
    have helse := checkStmt_eq_of_settled hf (checkStmt g scope thenBranch).scope elseBranch
      fun t ht => h t (.tail _ (List.mem_append_right _ ht))
    rw [checkStmt, checkStmt, hcond, hthen, helse]
  | while_ condition body s =>
    have hcond := checkExpr_eq_of_settled hf scope condition (h _ (.head _) condition (.head _))
    have hbody := checkStmt_eq_of_settled hf scope body fun t ht => h t (.tail _ ht)
    rw [checkStmt, checkStmt, hcond, hbody]
  | return_ value s =>
    cases value with
    | none => rfl
    | some e =>
      rw [checkStmt, checkStmt, checkExpr_eq_of_settled hf scope e (h _ (.head _) e (.head _))]

/-- Statements without calls on which the libraries differ. -/
lemma checkStmts_eq_of_settled (hf : g'.functions = g.functions) : ∀ (scope : Scope)
    (ss : List Stmt), (∀ t ∈ Stmt.nodesAll ss, t.Settled g g') →
      checkStmts g' scope ss = checkStmts g scope ss := by
  intro scope ss h
  cases ss with
  | nil => rfl
  | cons s ss =>
    have hfirst := checkStmt_eq_of_settled hf scope s fun t ht => h t (List.mem_append_left _ ht)
    have hothers := checkStmts_eq_of_settled hf (checkStmt g scope s).scope ss fun t ht =>
      h t (List.mem_append_right _ ht)
    rw [checkStmts, checkStmts, hfirst, hothers]

end

/-- A function without calls on which the libraries differ. -/
lemma checkFunction_eq_of_settled (hf : g'.functions = g.functions) {f : Function}
    (h : ∀ t ∈ f.stmts, t.Settled g g') : checkFunction g' f = checkFunction g f := by
  rw [checkFunction, checkFunction, checkStmts_eq_of_settled hf _ _ h]

end Settled

/-! ## Programs -/

/-- **More libraries.**  A program that is accepted is accepted next to more libraries.  If in all
calls of methods, wherever they stand in the program, the module is the console or none of the
libraries that are added, then the errors are the same, whether there are any or not.

**Proof sketch.** Accepted programs are the well-typed ones, and these stay well typed
(`Idyl.Typing.WellTyped.mono`).  A module that is called and is not added is a library before
exactly if it is one afterwards, so the check of each function goes the same way
(`Idyl.checkFunction_eq_of_settled`). -/
theorem more_libraries {libraries libraries' : NameSet}
    (hmore : ∀ m ∈ libraries, m ∈ libraries') (p : Program) :
    (checkProgram p libraries = [] → checkProgram p libraries' = []) ∧
    ((∀ m ∈ p.modules, m = consoleModule ∨ ¬(m ∈ libraries' ∧ m ∉ libraries)) →
      checkProgram p libraries' = checkProgram p libraries) := by
  constructor
  · intro h
    have hwell := Typing.findings_eq_nil_iff.1 (List.map_eq_nil_iff.1 h)
    exact List.map_eq_nil_iff.2 (Typing.findings_eq_nil_iff.2 (hwell.mono hmore))
  · intro h
    have hsame : (p.info libraries').globals.functions = (p.info libraries).globals.functions := rfl
    have hfunctions : ∀ f ∈ p.allFunctions,
        checkFunction (p.info libraries').globals f =
          checkFunction (p.info libraries).globals f := by
      intro f hf
      refine checkFunction_eq_of_settled hsame fun s hs e he x hx m hm => ?_
      have hexpr : x ∈ p.exprs := List.mem_flatMap.2
        ⟨f, hf, List.mem_flatMap.2 ⟨s, hs, List.mem_flatMap.2 ⟨e, he, hx⟩⟩⟩
      rcases h m (List.mem_filterMap.2 ⟨x, hexpr, hm⟩) with hconsole | hadded
      · exact .inl hconsole
      · exact .inr ⟨fun hm' => by_contra fun hno => hadded ⟨hm', hno⟩, hmore m⟩
    rw [checkProgram, checkProgram, findings, findings, List.flatMap_congr hfunctions]

/-- A program that calls a method of one module and declares a variable by one of another. -/
def calling (module other : String) : Program where
  imports := []
  functions := []
  main :=
    { name := "main", returns := .void, params := [], span := {}
      body :=
        { span := {}
          body := [.eval (.call (.member (.var module {}) "write" {}) [.lit (.int 1) {}] {}) {},
            .declare .void "x" (.call (.member (.var other {}) "f" {}) [] ⟨9, 14, 2, 9⟩) {}] } }
  file := "a.idyl"

/-- With both modules known the program is accepted; with one of them unknown it keeps its error
when a third one is added. -/
theorem more_libraries_calling :
    (∀ m ∈ NameSet.ofList ["a"], m ∈ NameSet.ofList ["a", "b"]) ∧
    (checkProgram (calling "console" "a") (.ofList ["a"]) = [] ∧
      checkProgram (calling "console" "a") (.ofList ["a", "b"]) = []) ∧
    (∀ m ∈ (calling "a" "c").modules, m = consoleModule ∨
      ¬(m ∈ NameSet.ofList ["a", "b"] ∧ m ∉ NameSet.ofList ["a"])) ∧
    checkProgram (calling "a" "c") (.ofList ["a", "b"]) =
      [⟨.unknownModule "c", "a.idyl", ⟨9, 14, 2, 9⟩⟩] := by
  have hmore : ∀ m ∈ NameSet.ofList ["a"], m ∈ NameSet.ofList ["a", "b"] := by
    intro m hm
    rw [NameSet.mem_ofList] at hm ⊢
    exact List.mem_append_left ["b"] hm
  have haccepted : checkProgram (calling "console" "a") (.ofList ["a"]) = [] := by decide
  have hcalled : ∀ m ∈ (calling "a" "c").modules, m = consoleModule ∨
      ¬(m ∈ NameSet.ofList ["a", "b"] ∧ m ∉ NameSet.ofList ["a"]) := by decide
  refine ⟨hmore, ⟨haccepted, (more_libraries hmore _).1 haccepted⟩, hcalled, ?_⟩
  rw [(more_libraries hmore _).2 hcalled]
  decide

end Idyl
