import Mathlib
import Idyl.Proofs.Recursion.Plan

/-!
# The rules of the grammar carry out their plans

The functions of `Idyl.Proofs.Recursion.Plan` call each other without an end in sight.  The rules of
the grammar, which count rounds and levels, do what these functions do: each rule gives what the
plan of its function gives over the rules for the functions that it calls.

## Main definitions

* `Idyl.Grammar.ruleOf` — the rule of each function.

## Main results

* `Idyl.Grammar.ruleOf_eq` — the rules solve the equations.
* `Idyl.Grammar.ruleOf_recedes`, `Idyl.Grammar.ruleOf_shrinking` — no rule gives tokens back, and
  rules for phrases take one.
-/

set_option autoImplicit false

namespace Idyl.Grammar

open Rule Plan

/-! ## The rules of the functions -/

/-- The rule for expressions with the given number of levels left. -/
abbrev expressionAt (depth : Nat) : Rule Expr := expressionRule (operandRule depth)

/-- The rule of each function. -/
def ruleOf ⦃α : Type⦄ : Symbol α → Nat → Rule α
  | .primary, depth => primaryRule (groupRuleAt depth)
  | .suffixes e, depth => iterate (postfixStep (expressionAt depth)) e
  | .suffixed, depth =>
    primaryRule (groupRuleAt depth) >>= iterate (postfixStep (expressionAt depth))
  | .prefixed, depth => prefixRule (operandRule depth) (expressionAt depth) (groupRuleAt depth)
  | .operand, depth => operandRule depth
  | .joins level left, depth =>
    iterate (joinStep (level + 1) (binaryRule (operandRule depth) level)) left
  | .binary level, depth => binaryRule (operandRule depth) level
  | .expression, depth => expressionAt depth
  | .arguments, depth => argumentsRule (expressionAt depth)
  | .moreArguments, depth =>
    many (fun ts => peek ts = .punct .comma) do
      let _ ← Rule.mark .comma ""
      expressionAt depth
  | .block, depth => blockRule (expressionAt depth) (statementRule depth)
  | .items, depth => do
    let body ← many inBlock (itemRule (expressionAt depth) (statementRule depth))
    let closing ← Rule.mark .rbrace "to close the block"
    pure (body, closing)
  | .declaration, depth => declarationRule (expressionAt depth)
  | .form, depth => statementFormRule (expressionAt depth) (statementRule depth)
  | .statement, depth => statementRule depth
  | .item, depth => itemRule (expressionAt depth) (statementRule depth)
  | .type, _ => typeRule
  | .import_, _ => importRule
  | .function, _ => functionRule
  | .main, _ => mainRule
  | .imports, _ => many Idyl.importAhead importRule
  | .functions, _ => many Idyl.functionAhead functionRule
  | .program file, _ => programRule file
  | .libraryItem, _ => libraryItemRule
  | .libraryItems, _ => many (fun ts => decide (peek ts ≠ .endOfFile)) libraryItemRule
  | .library, _ => libraryRule

/-! ## Loops, unrolled -/

section Loops

variable {α : Type}

/-- A rule that compares the next token with one kind looks for nothing else. -/
lemma next_ite (k : TokenKind) (r u : Rule α) :
    (next >>= fun k' => if k' = k then r else u) =
      look (fun ts => decide (peek ts = k)) >>= fun b => if b = true then r else u := by
  funext ts
  rw [next_bind, look_bind]
  simp only [decide_eq_true_eq]

/-- Phrases one after the other: one where it starts, and those behind it. -/
lemma many_eq {starts : List Token → Bool} {item : Rule α} (h : Paced starts item) :
    many starts item = look starts >>= fun b =>
      if b = true then (do let a ← item; let as ← many starts item; pure (a :: as))
      else pure [] := by
  funext ts
  rw [look_bind]
  cases hstart : starts ts with
  | true => exact many_of_true h hstart
  | false => exact many_of_false hstart

/-- Going on from a phrase: one step where there is one, and going on from what it gives. -/
lemma iterate_eq {step : α → TokenKind → Option (Rule α)} (h : Advancing step) (a : α) :
    iterate step a =
      look peek >>= fun k => (step a k).elim (pure a) fun r => r >>= iterate step := by
  funext ts
  rw [look_bind]
  cases hs : step a (peek ts) with
  | none => exact iterate_of_none hs
  | some r => exact iterate_of_some h hs

end Loops

/-- Seeing whether a kind is ahead. -/
@[simp] lemma run_ahead {X : Readers} (k : TokenKind) :
    (ahead k).run X = look fun ts => decide (peek ts = k) := run_read _ _

/-! ## Expressions -/

section Expressions

variable (depth : Nat)

/-- A group, one level further down. -/
lemma group_eq : groupRuleAt depth = (groupPlan depth).run ruleOf := by
  cases depth with
  | zero => exact (run_read _ _).symm
  | succ inner =>
    simp only [groupRuleAt, groupRule, groupPlan, Plan.mark, run_bind, run_ask, run_read, run_pure]
    rfl

/-- Without an opening parenthesis ahead, the rule for what stands behind one does not matter. -/
lemma primaryRule_of_ne {group group' : Rule Expr} {ts : List Token}
    (h : peek ts ≠ .punct .lparen) : primaryRule group ts = primaryRule group' ts := by
  cases ts with
  | nil => rfl
  | cons t rest =>
    cases hk : t.kind with
    | keyword w => cases w <;> simp only [primaryRule, hk]
    | punct m =>
      cases m with
      | lparen => exact absurd hk h
      | _ => simp only [primaryRule, hk]
    | _ => simp only [primaryRule, hk]

/-- Literals, names and groups. -/
lemma primary_eq : ruleOf .primary depth = (primaryPlan depth).run ruleOf := by
  funext ts
  simp only [primaryPlan, Plan.mark, run_bind, run_ahead, run_ite, run_read, look_bind, ← group_eq,
    decide_eq_true_eq]
  show primaryRule (groupRuleAt depth) ts = _
  by_cases hparen : peek ts = .punct .lparen
  · cases ts with
    | nil => cases hparen
    | cons t rest =>
      have hk : t.kind = .punct .lparen := hparen
      have hmark : Rule.mark .lparen "" (t :: rest) = .ok t rest := token_eq_ok.2 ⟨rfl, hk⟩
      rw [if_pos hparen, bind_of_ok hmark, primaryRule, hk]
  · rw [if_neg hparen]
    exact primaryRule_of_ne hparen

/-- One more call or member, or none. -/
lemma suffixes_eq (e : Expr) : ruleOf (.suffixes e) depth = (suffixesPlan depth e).run ruleOf := by
  have hadvancing := postfixStep_advancing (expressionRule_sound (operandRule_sound depth))
  funext ts
  simp only [suffixesPlan, Plan.mark, Plan.name, run_bind, run_ahead, run_ite, run_read, run_ask,
    run_pure, look_bind, decide_eq_true_eq]
  show iterate (postfixStep (expressionAt depth)) e ts = _
  rw [iterate_eq hadvancing, look_bind]
  by_cases hparen : peek ts = .punct .lparen
  · rw [if_pos hparen, hparen]
    simp only [postfixStep, Option.elim, bind_assoc, pure_bind]
    rfl
  · rw [if_neg hparen, look_bind]
    by_cases hdot : peek ts = .punct .dot
    · rw [if_pos (decide_eq_true hdot), hdot]
      simp only [postfixStep, Option.elim, bind_assoc, pure_bind]
      rfl
    · have hnone : postfixStep (expressionAt depth) e (peek ts) = none := by
        unfold postfixStep
        split <;> first | rfl | contradiction
      rw [if_neg (by simpa using hdot), hnone]
      rfl

/-- A primary phrase and what follows it. -/
lemma suffixed_eq : ruleOf .suffixed depth = (plan .suffixed depth).run ruleOf := by
  simp only [plan, run_bind, run_ask]
  rfl

/-- Operators in front of an operand. -/
lemma prefixed_eq : ruleOf .prefixed depth = (prefixedPlan depth).run ruleOf := by
  funext ts
  simp only [prefixedPlan, Plan.mark, Plan.word, run_bind, run_ahead, run_ite, run_read, run_ask,
    run_pure, look_bind, decide_eq_true_eq]
  show prefixRule (operandRule depth) (expressionAt depth) (groupRuleAt depth) ts = _
  rw [prefixRule, next_bind]
  by_cases hnot : peek ts = .keyword .not
  · rw [if_pos hnot, hnot]
    rfl
  · rw [if_neg hnot, look_bind]
    by_cases hminus : peek ts = .punct .minus
    · rw [if_pos (decide_eq_true hminus), hminus]
      rfl
    · rw [if_neg (by simpa using hminus)]
      generalize peek ts = k at hnot hminus
      split <;> first | rfl | contradiction

/-- An operand takes a level. -/
lemma operand_eq : ruleOf .operand depth = (plan .operand depth).run ruleOf := by
  cases depth with
  | zero => exact (run_read _ _).symm
  | succ depth =>
    rw [plan, run_ask]
    exact operandRule_succ depth

/-- One more operator of a level, or none. -/
lemma joins_eq (level : Fin BinaryOp.loosest) (left : Expr) :
    ruleOf (.joins level left) depth = (joinsPlan depth level left).run ruleOf := by
  have hadvancing :=
    joinStep_advancing (binaryRule_shrinking depth level) (level + 1)
  funext ts
  simp only [joinsPlan, run_bind, see, run_read, look_bind]
  show iterate (joinStep (level + 1) (binaryRule (operandRule depth) level)) left ts = _
  rw [iterate_eq hadvancing, look_bind, joinStep]
  cases binaryOp? (peek ts) with
  | none => rfl
  | some op =>
    by_cases hlevel : op.level = level + 1
    · simp only [if_pos hlevel, Option.elim, run_bind, run_read, run_ask, bind_assoc, pure_bind]
      rfl
    · simp only [if_neg hlevel]
      rfl

/-- A level of operators over the one below. -/
lemma binary_eq (level : Fin (BinaryOp.loosest + 1)) :
    ruleOf (.binary level) depth = (plan (.binary level) depth).run ruleOf := by
  induction level using Fin.cases with
  | zero => exact (run_ask _ _).symm
  | succ below =>
    show _ = Plan.run ruleOf (do
      let left ← ask (.binary below.castSucc) depth
      ask (.joins below left) depth)
    simp only [run_bind, run_ask]
    rfl

/-- An assignment is an expression and what may follow it. -/
lemma expression_eq : ruleOf .expression depth = (expressionPlan depth).run ruleOf := by
  have hassign := assignmentRule_eq (binaryRule_shrinking depth BinaryOp.loosest)
  simp only [expressionPlan, Plan.mark, run_bind, run_ahead, run_ite, run_read, run_ask, run_pure]
  refine hassign.trans (bind_congr fun target => ?_)
  rw [assignmentTail, next_ite]
  refine bind_congr fun b => ?_
  split
  · refine bind_congr fun sign => ?_
    cases target with
    | var name span =>
      simp only [run_bind, run_ask, run_pure]
      rfl
    | _ => exact (run_read _ _).symm
  · rfl

/-- The arguments of a call. -/
lemma arguments_eq : ruleOf .arguments depth = (argumentsPlan depth).run ruleOf := by
  simp only [argumentsPlan, run_bind, run_ahead, run_ite, run_ask, run_pure]
  exact next_ite _ _ _

/-- One more argument behind a comma, or none. -/
lemma moreArguments_eq : ruleOf .moreArguments depth = (moreArgumentsPlan depth).run ruleOf := by
  simp only [moreArgumentsPlan, Plan.mark, run_bind, run_ahead, run_ite, run_read, run_ask,
    run_pure]
  show many (fun ts => decide (peek ts = .punct .comma)) _ = _
  rw [many_eq (arguments_paced depth)]
  simp only [bind_assoc]
  rfl

end Expressions

/-! ## Statements -/

section Statements

variable (depth : Nat)

/-- A block starts with its brace. -/
lemma block_eq : ruleOf .block depth = (blockPlan depth).run ruleOf := by
  simp only [blockPlan, Plan.mark, run_bind, run_read, run_ask, run_pure]
  simp only [ruleOf, blockRule, bind_assoc, pure_bind]

/-- One more phrase of a block, or its closing brace. -/
lemma items_eq : ruleOf .items depth = (itemsPlan depth).run ruleOf := by
  simp only [itemsPlan, Plan.mark, see, run_bind, run_ite, run_read, run_ask, run_pure]
  simp only [ruleOf, bind_assoc, pure_bind]
  conv_lhs => rw [many_eq (items_paced depth)]
  simp only [bind_assoc]
  refine bind_congr fun b => ?_
  split
  · simp only [bind_assoc, pure_bind]
  · simp only [pure_bind]

/-- A declaration, with or without a first value. -/
lemma declaration_eq : ruleOf .declaration depth = (declarationPlan depth).run ruleOf := by
  simp only [declarationPlan, Plan.mark, Plan.name, run_bind, run_read, run_ask]
  simp only [ruleOf, declarationRule]
  refine bind_congr fun type => bind_congr fun n => ?_
  cases type.1.default? with
  | none => exact (run_read _ _).symm
  | some value =>
    simp only [run_bind, run_ahead, run_ite, run_read, run_ask, run_pure]
    funext ts
    simp only [next_bind, look_bind, decide_eq_true_eq]
    split <;> rfl

/-- A condition in parentheses. -/
lemma condition_eq (place : String) :
    conditionRule (expressionAt depth) place = (conditionPlan depth place).run ruleOf := by
  simp only [conditionPlan, Plan.mark, run_bind, run_read, run_ask, run_pure]
  rfl

/-- An `if`, with or without an `else`. -/
lemma if_eq :
    ifRule (expressionAt depth) (statementRule depth) = (ifPlan depth).run ruleOf := by
  simp only [ifPlan, Plan.word, run_bind, run_read, run_ask, run_pure, run_ahead, run_ite,
    ← condition_eq]
  simp only [ifRule, next_ite, ruleOf]

/-- A loop. -/
lemma while_eq :
    whileRule (expressionAt depth) (statementRule depth) = (whilePlan depth).run ruleOf := by
  simp only [whilePlan, Plan.word, run_bind, run_read, run_ask, run_pure, ← condition_eq]
  rfl

/-- A `return`, with or without a value. -/
lemma return_eq : returnRule (expressionAt depth) = (returnPlan depth).run ruleOf := by
  simp only [returnPlan, Plan.word, Plan.mark, run_bind, run_read, run_ask, run_pure, run_ahead,
    run_ite]
  rw [returnRule]
  refine bind_congr fun start => ?_
  funext ts
  simp only [next_bind, bind_assoc, look_bind, decide_eq_true_eq, map_eq_pure_bind]
  split
  · rfl
  · simp only [pure_bind]
    rfl

/-- An expression with a semicolon. -/
lemma eval_eq : evalRule (expressionAt depth) = (evalPlan depth).run ruleOf := by
  simp only [evalPlan, Plan.mark, run_bind, run_read, run_ask, run_pure]
  rfl

/-- A statement is told by its first token. -/
lemma form_eq : ruleOf .form depth = (formPlan depth).run ruleOf := by
  funext ts
  simp only [formPlan, run_bind, run_ahead, run_ite, run_ask, run_pure, look_bind, Rule.ite_apply,
    decide_eq_true_eq, ← if_eq, ← while_eq, ← return_eq, ← eval_eq]
  simp only [ruleOf, statementFormRule, next_bind]
  generalize peek ts = k
  split <;> simp_all

/-- A statement takes a level. -/
lemma statement_eq : ruleOf .statement depth = (plan .statement depth).run ruleOf := by
  cases depth with
  | zero => exact (run_read _ _).symm
  | succ depth => exact (run_ask _ _).symm

/-- What stands in a block: a declaration, a misspelled one, or a statement. -/
lemma item_eq : ruleOf .item depth = (itemPlan depth).run ruleOf := by
  funext ts
  simp only [itemPlan, see, run_bind, run_ite, run_read, run_ask, look_bind, Rule.ite_apply]
  simp only [ruleOf, itemRule]
  split
  · rfl
  · cases misspelledType? ts with
    | some n => rfl
    | none => simp only [run_ask, ruleOf]

end Statements

/-! ## Files -/

section Files

variable (depth : Nat)

/-- No parameter or one. -/
lemma params_eq (function : String) :
    paramsRule function = (paramsPlan depth function).run ruleOf := by
  simp only [paramsPlan, Plan.name, Plan.fault, run_bind, run_ahead, run_ite, run_read, run_ask,
    run_pure]
  simp only [paramsRule, next_ite, ruleOf]

/-- A function: type, name, parameters and body. -/
lemma function_eq : ruleOf .function depth = (functionPlan depth).run ruleOf := by
  simp only [functionPlan, Plan.word, Plan.name, Plan.mark, run_bind, run_read, run_ask, run_pure,
    ← params_eq]
  rfl

/-- The function `main`. -/
lemma main_eq : ruleOf .main depth = mainPlan.run ruleOf := by
  simp only [mainPlan, Plan.word, Plan.mark, run_bind, run_read, run_ask, run_pure]
  rfl

/-- Phrases one after the other: one and then the others, or none. -/
lemma list_eq {α : Type} {starts : List Token → Bool} {item : Rule α} (h : Paced starts item)
    {one : Plan α} {others : Plan (List α)} (hone : one.run ruleOf = item)
    (hothers : others.run ruleOf = many starts item) :
    many starts item = (listPlan starts one others).run ruleOf := by
  simp only [listPlan, see, run_bind, run_ite, run_read, run_pure, hone, hothers]
  exact many_eq h

/-- A program: imports, functions, `main` and the end of the file. -/
lemma program_eq (file : String) :
    ruleOf (.program file) depth = (programPlan depth file).run ruleOf := by
  simp only [programPlan, Plan.expected, run_bind, run_ahead, run_ite, run_read, run_ask, run_pure]
  simp only [ruleOf, programRule, next_ite]

/-- What stands in a library: an import or a function. -/
lemma libraryItem_eq : ruleOf .libraryItem depth = (libraryItemPlan depth).run ruleOf := by
  funext ts
  simp only [libraryItemPlan, see, Plan.fault, run_bind, run_ite, run_read, run_ask, run_pure,
    look_bind, Rule.ite_apply]
  simp only [ruleOf, libraryItemRule, map_eq_pure_bind]

/-- A library is all that stands in it. -/
lemma library_eq : ruleOf .library depth = (libraryPlan depth).run ruleOf := by
  simp only [libraryPlan, run_bind, run_ask, run_pure]
  rfl

end Files

/-- **The rules solve the equations**: each gives what the plan of its function gives over the rules
of the functions that it calls. -/
theorem ruleOf_eq {α : Type} (x : Symbol α) (depth : Nat) :
    ruleOf x depth = unroll ruleOf x depth := by
  cases x with
  | primary => exact primary_eq depth
  | suffixes e => exact suffixes_eq depth e
  | suffixed => exact suffixed_eq depth
  | prefixed => exact prefixed_eq depth
  | operand => exact operand_eq depth
  | joins level left => exact joins_eq depth level left
  | binary level => exact binary_eq depth level
  | expression => exact expression_eq depth
  | arguments => exact arguments_eq depth
  | moreArguments => exact moreArguments_eq depth
  | block => exact block_eq depth
  | items => exact items_eq depth
  | declaration => exact declaration_eq depth
  | form => exact form_eq depth
  | statement => exact statement_eq depth
  | item => exact item_eq depth
  | type | import_ => exact (run_read _ _).symm
  | function => exact function_eq depth
  | main => exact main_eq depth
  | imports => exact list_eq imports_paced (run_ask _ _) (run_ask _ _)
  | functions => exact list_eq functions_paced (run_ask _ _) (run_ask _ _)
  | program file => exact program_eq depth file
  | libraryItem => exact libraryItem_eq depth
  | libraryItems => exact list_eq libraryItems_paced (run_ask _ _) (run_ask _ _)
  | library => exact library_eq depth

/-! ## Progress -/

section Progress

variable {α β : Type}

/-- Rules in a row take a token if the first one does. -/
lemma shrinking_of_first {r : Rule α} {f : α → Rule β} (hr : r.Shrinking)
    (hf : ∀ a, (f a).Recedes) : (r >>= f).Shrinking :=
  bind_shrinking hr fun a _ _ _ h => (hf a h).length_le

/-- Rules in a row take a token if the second one does. -/
lemma shrinking_of_last {r : Rule α} {f : α → Rule β} (hr : r.Recedes)
    (hf : ∀ a, (f a).Shrinking) : (r >>= f).Shrinking := by
  intro ts b rest h
  obtain ⟨a, mid, hmid, hrest⟩ := bind_eq_ok.1 h
  exact Nat.lt_of_lt_of_le (hf a hrest) (hr hmid).length_le

/-- A type takes a token. -/
lemma typeRule_shrinking : typeRule.Shrinking := by
  intro ts a rest h
  obtain ⟨rfl, -⟩ := typeRule_eq_ok.1 (show typeRule ts = .ok (a.1, a.2) rest from h)
  simp

/-- What is missing never succeeds. -/
lemma expected_shrinking (what : String) : (Rule.expected what : Rule α).Shrinking := by
  intro ts a rest h
  simp [Rule.expected, Rule.fault] at h

variable (depth : Nat)

/-- Groups look no further than other phrases. -/
lemma groupRuleAt_shortsighted : (groupRuleAt depth).Shortsighted := by
  cases depth with
  | zero => exact fault_shortsighted _
  | succ inner =>
    exact groupRule_shortsighted (expressionRule_shortsighted (operandRule_shortsighted inner))

/-- A group ends with its parenthesis. -/
lemma groupRuleAt_closes : ClosesGroup (groupRuleAt depth) (Group depth) := by
  cases depth with
  | zero => intro ts e rest hr; simp [groupRuleAt, Rule.fault] at hr
  | succ inner => exact groupRule_sound (expressionRule_sound (operandRule_sound inner))

/-- All rules look no further than two tokens behind those they take. -/
lemma ruleOf_shortsighted (x : Symbol α) : (ruleOf x depth).Shortsighted := by
  have hoperand := operandRule_shortsighted depth
  have hexpression := expressionRule_shortsighted hoperand
  have hstatement := statementRule_shortsighted depth
  have hprimary := primaryRule_shortsighted (groupRuleAt_shortsighted depth)
  have hsuffixes := iterate_shortsighted
    (postfixStep_advancing (expressionRule_sound (operandRule_sound depth)))
    fun _ _ _ hr => postfixStep_shortsighted hexpression hr
  have hitem := itemRule_shortsighted hexpression hstatement
  cases x with
  | primary => exact hprimary
  | suffixes e => exact hsuffixes e
  | suffixed => exact hprimary.bind hsuffixes
  | prefixed => exact prefixRule_shortsighted hoperand (groupRuleAt_shortsighted depth)
  | operand => exact hoperand
  | joins level left =>
    exact iterate_shortsighted (joinStep_advancing (binaryRule_shrinking depth level) _)
      (fun _ _ _ hr => joinStep_shortsighted (binaryRule_shortsighted hoperand level) hr) left
  | binary level => exact binaryRule_shortsighted hoperand level
  | expression => exact hexpression
  | arguments => exact argumentsRule_shortsighted hexpression
  | moreArguments =>
    refine many_shortsighted (arguments_paced depth) (fun ts ts' h => ?_)
      ((mark_shortsighted _ _).bind fun _ => hexpression)
    rw [peek_of_take h]
  | block => exact blockRule_shortsighted hstatement
  | items =>
    refine (many_shortsighted (items_paced depth) (fun ts ts' h => ?_) hitem).bind fun _ =>
      (mark_shortsighted _ _).bind fun _ => pure_shortsighted _
    rw [inBlock, inBlock, peek_of_take h]
  | declaration => exact declarationRule_shortsighted hexpression
  | form => exact statementRule_shortsighted (depth + 1)
  | statement => exact hstatement
  | item => exact hitem
  | type => exact typeRule_shortsighted
  | import_ => exact importRule_shortsighted
  | function => exact functionRule_shortsighted
  | main => exact mainRule_shortsighted
  | imports =>
    exact many_shortsighted imports_paced (fun _ _ => importAhead_of_take) importRule_shortsighted
  | functions =>
    exact many_shortsighted functions_paced (fun _ _ => functionAhead_of_take)
      functionRule_shortsighted
  | program file => exact programRule_shortsighted file
  | libraryItem => exact libraryItemRule_shortsighted
  | libraryItems =>
    refine many_shortsighted libraryItems_paced (fun ts ts' h => ?_) libraryItemRule_shortsighted
    rw [peek_of_take h]
  | library => exact libraryRule_shortsighted

/-- **No rule gives tokens back.** -/
lemma ruleOf_recedes (x : Symbol α) : (ruleOf x depth).Recedes :=
  (ruleOf_shortsighted depth x).recedes

/-- A plan takes a token if its first part does. -/
lemma run_bind_shrinking {p : Plan α} (hp : (p.run ruleOf).Shrinking) (f : α → Plan β) :
    ((p >>= f).run ruleOf).Shrinking := by
  rw [run_bind]
  exact shrinking_of_first hp fun a => run_recedes (fun x depth => ruleOf_recedes depth x) (f a)

/-- A mark takes a token. -/
lemma mark_shrinking (p : Punct) (place : String) :
    ((Plan.mark p place).run ruleOf).Shrinking := by
  rw [Plan.mark, run_read]
  exact token_shrinking _ _

/-- The closing brace of a block is taken. -/
lemma items_shrinking : (ruleOf .items depth).Shrinking := by
  rw [items_eq, itemsPlan, run_bind]
  refine shrinking_of_last ((look_recedes inBlock).bind fun b => (pure_shortsighted b).recedes) ?_
  intro b
  rw [run_ite]
  split
  · refine run_bind_shrinking ?_ _
    rw [run_ask]
    exact itemRule_shrinking depth
  · exact run_bind_shrinking (mark_shrinking _ _) _

/-- The word `main` is taken. -/
lemma main_shrinking : (ruleOf .main depth).Shrinking := by
  rw [main_eq, mainPlan]
  refine run_bind_shrinking ?_ _
  rw [Plan.word, run_read]
  exact token_shrinking _ _

/-- A program has a `main`. -/
lemma program_shrinking (file : String) : (ruleOf (.program file) depth).Shrinking := by
  refine shrinking_of_last (ruleOf_recedes depth .imports) fun is => ?_
  refine shrinking_of_last (ruleOf_recedes depth .functions) fun fs => ?_
  refine shrinking_of_last next_shortsighted.recedes fun k => ?_
  split
  · refine shrinking_of_first (main_shrinking depth) fun m => Shortsighted.recedes ?_
    exact next_shortsighted.bind fun k => .ite (pure_shortsighted _) (expected_shortsighted _)
  · exact expected_shrinking _

/-- **Rules for phrases take a token.** -/
lemma ruleOf_shrinking {x : Symbol α} (hx : x.isLoop = false) : (ruleOf x depth).Shrinking := by
  have hprimary : (ruleOf .primary depth).Shrinking :=
    (primaryRule_sound (groupRuleAt_closes depth)).shrinking primary_startsWith
  have htype : ((ask .type depth).run ruleOf).Shrinking := by
    rw [run_ask]
    exact typeRule_shrinking
  cases x with
  | suffixes | joins | arguments | moreArguments | imports | functions | libraryItems | library =>
    cases hx
  | primary => exact hprimary
  | suffixed => exact shrinking_of_first hprimary fun e => ruleOf_recedes depth (.suffixes e)
  | prefixed =>
    have h := (operandRule_sound (depth + 1)).shrinking (operand_startsWith (depth + 1))
    rwa [operandRule_succ] at h
  | operand => exact (operandRule_sound depth).shrinking (operand_startsWith depth)
  | binary level => exact binaryRule_shrinking depth level
  | expression => exact expressionRule_shrinking depth
  | block =>
    rw [block_eq, blockPlan]
    exact run_bind_shrinking (mark_shrinking _ _) _
  | items => exact items_shrinking depth
  | declaration =>
    rw [declaration_eq, declarationPlan]
    exact run_bind_shrinking htype _
  | form => exact (statementRule_sound (depth + 1)).shrinking (statement_startsWith (depth + 1))
  | statement => exact (statementRule_sound depth).shrinking (statement_startsWith depth)
  | item => exact itemRule_shrinking depth
  | type => exact typeRule_shrinking
  | import_ => exact importRule_shrinking
  | function =>
    rw [function_eq, functionPlan]
    exact run_bind_shrinking htype _
  | main => exact main_shrinking depth
  | program file => exact program_shrinking depth file
  | libraryItem => exact libraryItemRule_shrinking

end Progress

end Idyl.Grammar
