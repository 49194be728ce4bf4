import Mathlib
import Idyl.Proofs.Grammar.Sentence
import Idyl.Proofs.Pairing.Trees
import Idyl.Proofs.Token.Steps

/-!
# Reading carries places along

Every rule of the grammar, given tokens of two runs that stand for each other, gives trees that
stand for each other, or the same fault at tokens that do.  There is one lemma for each way to put
rules together and one for each rule; the rules that count levels follow by induction on the
number of levels.

## Main definitions

* `Idyl.Reply.Paired`, `Idyl.Rule.Paired` — replies and rules of two runs.
* `Idyl.Rule.Carries` — a rule that carries places along.

## Main results

* `Idyl.programRule_paired`, `Idyl.libraryRule_carries` — whole files.
* `Idyl.parseTokens_paired`, `Idyl.parseLibraryTokens_paired` — reading tokens up to the end of a
  file.
-/

set_option autoImplicit false

namespace Idyl

variable {M : Pairing} {α β : Type}

/-- Replies of two runs: phrases that stand for each other, with such tokens left; or the same fault
at tokens that stand for each other. -/
inductive Reply.Paired (M : Pairing) (Q : α → α → Prop) : Reply α → Reply α → Prop
  | ok {a a' : α} {rest rest' : List Token} (ha : Q a a')
      (hrest : List.Forall₂ M.token rest rest') : Paired M Q (.ok a rest) (.ok a' rest')
  | fail {f : SyntaxFault} {t t' : Option Token} {rest rest' : List Token}
      (ht : Option.Rel M.token t t') : Paired M Q (.fail ⟨f, t⟩ rest) (.fail ⟨f, t'⟩ rest')

namespace Rule

/-- On tokens that stand for each other, two rules give replies that do. -/
def Paired (M : Pairing) (Q : α → α → Prop) (r r' : Rule α) : Prop :=
  ∀ ⦃ts ts' : List Token⦄, List.Forall₂ M.token ts ts' → (r ts).Paired M Q (r' ts')

/-- A rule that carries places along: its phrases are related by `Q`. -/
def Carries (M : Pairing) (Q : α → α → Prop) (r : Rule α) : Prop := Paired M Q r r

/-! ## Rules for one token -/

/-- Paired tokens show the same kind ahead. -/
lemma peek_eq {ts ts' : List Token} (h : List.Forall₂ M.token ts ts') : peek ts = peek ts' := by
  cases h with
  | nil => rfl
  | cons ht _ => exact M.kind_eq ht

/-- Paired tokens have the same kinds. -/
lemma kinds_eq {ts ts' : List Token} (h : List.Forall₂ M.token ts ts') : kinds ts = kinds ts' :=
  map_eq_of_forall₂ h M.kind_eq

/-- Values that are paired. -/
lemma paired_pure {Q : α → α → Prop} {a a' : α} (h : Q a a') : Paired M Q (pure a) (pure a') :=
  fun _ _ hts => .ok h hts

/-- A fault is the same at paired tokens. -/
lemma fault_carries {Q : α → α → Prop} (f : SyntaxFault) : (fault f).Carries M Q := by
  intro ts ts' h
  cases h with
  | nil => exact .fail .none
  | cons ht _ => exact .fail (.some ht)

/-- A fault at paired tokens. -/
lemma paired_faultAt {Q : α → α → Prop} {t t' : Token} (h : M.token t t') (f : SyntaxFault) :
    Paired M Q (faultAt t f) (faultAt t' f) :=
  fun _ _ _ => .fail (.some h)

/-- What is missing is told by the kind ahead. -/
lemma expected_carries {Q : α → α → Prop} (what : String) : (expected what).Carries M Q := by
  intro ts ts' h
  rw [expected, expected, peek_eq h]
  exact fault_carries _ h

/-- The kind ahead is the same. -/
lemma next_carries : next.Carries M Eq := fun _ _ h => .ok (peek_eq h) h

/-- Paired tokens are taken together. -/
lemma token_carries (kind : TokenKind) (place : String) :
    (token kind place).Carries M M.token := by
  intro ts ts' h
  cases h with
  | nil => exact expected_carries _ .nil
  | @cons t t' rest rest' ht hrest =>
    rw [token, token, ← M.kind_eq ht]
    split
    · exact .ok ht hrest
    · exact expected_carries _ (.cons ht hrest)

/-- A mark is one token. -/
lemma mark_carries (p : Punct) (place : String) : (mark p place).Carries M M.token :=
  token_carries _ _

/-- A word is one token. -/
lemma word_carries (k : Keyword) (place : String) : (word k place).Carries M M.token :=
  token_carries _ _

/-- Names that were read: the same name, at places that stand for each other. -/
def NamePaired (M : Pairing) (x x' : String × Span) : Prop := x.1 = x'.1 ∧ M.span x.2 x'.2

/-- A name is the same in both readings, at paired spans. -/
lemma name_carries (what : String) : (name what).Carries M (NamePaired M) := by
  intro ts ts' h
  cases h with
  | nil => exact expected_carries _ .nil
  | @cons t t' rest rest' ht hrest =>
    rw [name, name, ← M.kind_eq ht]
    split
    · exact .ok ⟨rfl, M.span_of_token ht⟩ hrest
    · exact expected_carries _ (.cons ht hrest)

/-! ## Rules put together -/

/-- **Rules in a row**: what the first rules give stands for each other, and from such phrases the
second ones give what does. -/
lemma Paired.bind {Q : α → α → Prop} {Q' : β → β → Prop} {r r' : Rule α} {f f' : α → Rule β}
    (h : Paired M Q r r') (hf : ∀ a a', Q a a' → Paired M Q' (f a) (f' a')) :
    Paired M Q' (r >>= f) (r' >>= f') := by
  intro ts ts' hts
  have hreply := h hts
  cases hr : r ts with
  | ok a rest =>
    cases hr' : r' ts' with
    | ok a' rest' =>
      rw [hr, hr'] at hreply
      cases hreply with
      | ok ha hrest =>
        rw [bind_of_ok hr, bind_of_ok hr']
        exact hf a a' ha hrest
    | fail m' rest' => rw [hr, hr'] at hreply; cases hreply
  | fail m rest =>
    cases hr' : r' ts' with
    | ok a' rest' => rw [hr, hr'] at hreply; cases hreply
    | fail m' rest' =>
      rw [hr, hr'] at hreply
      cases hreply with
      | fail ht =>
        rw [bind_of_fail hr, bind_of_fail hr']
        exact .fail ht

/-- A rule that looks at the token ahead looks at the same kind in both runs. -/
lemma Paired.bind_next {Q : α → α → Prop} {f f' : TokenKind → Rule α}
    (h : ∀ k, Paired M Q (f k) (f' k)) : Paired M Q (next >>= f) (next >>= f') :=
  Paired.bind next_carries fun k _ hk => hk ▸ h k

/-- A choice that is the same in both readings. -/
lemma Paired.ite {Q : α → α → Prop} {p : Prop} [Decidable p] {r r' u u' : Rule α}
    (hr : Paired M Q r r') (hu : Paired M Q u u') :
    Paired M Q (if p then r else u) (if p then r' else u') := by
  split
  · exact hr
  · exact hu

/-- **Phrases one after the other.** The number of rounds is the same in both runs, since it is
counted by tokens that stand for each other. -/
lemma manyWithin_carries {Q : α → α → Prop} {starts : List Token → Bool} {item : Rule α}
    (hstarts : ∀ ⦃ts ts'⦄, List.Forall₂ M.token ts ts' → starts ts = starts ts')
    (hitem : item.Carries M Q) {rounds rounds' : List Token}
    (hrounds : List.Forall₂ M.token rounds rounds') :
    Paired M (List.Forall₂ Q) (manyWithin starts item rounds) (manyWithin starts item rounds') := by
  induction hrounds with
  | nil => exact fun _ _ hts => .ok .nil hts
  | @cons _ _ us us' _ _ ih =>
    intro ts ts' hts
    rw [manyWithin, manyWithin, ← hstarts hts]
    split
    · have hreply := hitem hts
      generalize item ts = reply, item ts' = reply' at hreply
      cases hreply with
      | fail ht => exact .fail ht
      | @ok a a' mid mid' ha hmid =>
        have hothers := ih hmid
        dsimp only
        generalize manyWithin starts item us mid = others,
          manyWithin starts item us' mid' = others' at hothers
        cases hothers with
        | fail ht => exact .fail ht
        | ok has hrest => exact .ok (.cons ha has) hrest
    · exact .ok .nil hts

/-- Phrases are repeated equally often in both readings. -/
lemma many_carries {Q : α → α → Prop} {starts : List Token → Bool} {item : Rule α}
    (hstarts : ∀ ⦃ts ts'⦄, List.Forall₂ M.token ts ts' → starts ts = starts ts')
    (hitem : item.Carries M Q) : (many starts item).Carries M (List.Forall₂ Q) :=
  fun _ _ hts => manyWithin_carries hstarts hitem hts hts

/-- Steps are repeated equally often in both readings, from paired starts. -/
lemma iterateWithin_paired {Q : α → α → Prop} {step : α → TokenKind → Option (Rule α)}
    (hstep : ∀ a a' k, Q a a' → Option.Rel (Paired M Q) (step a k) (step a' k))
    {rounds rounds' : List Token} (hrounds : List.Forall₂ M.token rounds rounds') {a a' : α}
    (ha : Q a a') : Paired M Q (iterateWithin step rounds a) (iterateWithin step rounds' a') := by
  induction hrounds generalizing a a' with
  | nil => exact fun _ _ hts => .ok ha hts
  | cons _ _ ih =>
    intro ts ts' hts
    rw [iterateWithin, iterateWithin, ← peek_eq hts]
    have hrule := hstep a a' (peek ts) ha
    generalize step a (peek ts) = rule, step a' (peek ts) = rule' at hrule
    cases hrule with
    | none => exact .ok ha hts
    | @some r r' hr =>
      have hreply := hr hts
      dsimp only
      generalize r ts = reply, r' ts' = reply' at hreply
      cases hreply with
      | fail ht => exact .fail ht
      | ok hb hrest => exact ih hb hrest

/-- **Going on from a phrase to a larger one.** -/
lemma iterate_paired {Q : α → α → Prop} {step : α → TokenKind → Option (Rule α)}
    (hstep : ∀ a a' k, Q a a' → Option.Rel (Paired M Q) (step a k) (step a' k)) {a a' : α}
    (ha : Q a a') : Paired M Q (iterate step a) (iterate step a') :=
  fun _ _ hts => iterateWithin_paired hstep hts ha hts

end Rule

open Rule

variable {operand expression group : Rule Expr} {statement : Rule Stmt}

/-! ## Expressions -/

/-- One round of operators, from paired left operands. -/
lemma joinStep_paired (h : operand.Carries M (Expr.Paired M)) (level : Nat) (l l' : Expr)
    (k : TokenKind) (hl : l.Paired M l') :
    Option.Rel (Rule.Paired M (Expr.Paired M)) (joinStep level operand l k)
      (joinStep level operand l' k) := by
  unfold joinStep
  cases binaryOp? k with
  | none => exact .none
  | some op =>
    dsimp only
    split
    · refine .some ?_
      exact Paired.bind (token_carries k "") fun _ _ _ =>
        Paired.bind h fun r r' hr => paired_pure (hl.join hr)
    · exact .none

/-- Operators of all levels. -/
lemma binaryRule_carries (h : operand.Carries M (Expr.Paired M)) (level : Nat) :
    (binaryRule operand level).Carries M (Expr.Paired M) := by
  induction level with
  | zero => exact h
  | succ level ih =>
    exact Paired.bind ih fun l l' hl => iterate_paired (joinStep_paired ih (level + 1)) hl

/-- Assignments.

**Proof sketch.** Induction on the rounds, which are as many in both runs.  What stands left of `=`
is a variable in both runs or in none, and in the latter case it has the same form. -/
lemma assignmentWithin_carries (h : operand.Carries M (Expr.Paired M))
    {rounds rounds' : List Token} (hrounds : List.Forall₂ M.token rounds rounds') :
    Rule.Paired M (Expr.Paired M) (assignmentWithin operand rounds)
      (assignmentWithin operand rounds') := by
  induction hrounds with
  | nil => exact h
  | cons _ _ ih =>
    refine Paired.bind h fun target target' htarget => Paired.bind_next fun k => ?_
    refine Paired.ite (Paired.bind (mark_carries _ _) fun sign sign' hsign => ?_)
      (paired_pure htarget)
    cases htarget with
    | var hs =>
      exact Paired.bind ih fun v v' hv => paired_pure (.assign hv (M.merge hs hv.span))
    | lit | assign | binary | unary | call | member => exact paired_faultAt hsign _

/-- Expressions. -/
lemma expressionRule_carries (h : operand.Carries M (Expr.Paired M)) :
    (expressionRule operand).Carries M (Expr.Paired M) :=
  fun _ _ hts => assignmentWithin_carries (binaryRule_carries h _) hts hts

/-- Literals, names and groups. -/
lemma primaryRule_carries (h : group.Carries M (Expr.Paired M)) :
    (primaryRule group).Carries M (Expr.Paired M) := by
  intro ts ts' hts
  cases hts with
  | nil => exact expected_carries _ .nil
  | @cons t t' rest rest' ht hrest =>
    have hspan := M.span_of_token ht
    have hfault : ∀ f, (fault f (t :: rest)).Paired M (Expr.Paired M) (fault f (t' :: rest')) :=
      fun f => fault_carries f (.cons ht hrest)
    have hexpected := expected_carries (M := M) (Q := Expr.Paired M) "expression" (.cons ht hrest)
    rw [primaryRule, primaryRule, ← M.kind_eq ht]
    -- the cases are those of the kind, which is the same in both runs
    cases t.kind with
    | integer text =>
      dsimp only
      cases readInt? text with
      | none => exact hfault _
      | some n => exact .ok (.lit hspan) hrest
    | float text =>
      dsimp only
      cases Binary64.ofText? text with
      | none => exact hfault _
      | some x => exact .ok (.lit hspan) hrest
    | string value | char value => exact .ok (.lit hspan) hrest
    | identifier n => exact .ok (.var hspan) hrest
    | keyword w =>
      cases w with
      | true | false => exact .ok (.lit hspan) hrest
      | _ => exact hexpected
    | punct m =>
      cases m with
      | lparen => exact h hrest
      | _ => exact hexpected
    | endOfFile => exact hexpected

/-- The arguments of a call. -/
lemma argumentsRule_carries (h : expression.Carries M (Expr.Paired M)) :
    (argumentsRule expression).Carries M (List.Forall₂ (Expr.Paired M)) := by
  refine Paired.bind_next fun k => Paired.ite (paired_pure .nil) ?_
  refine Paired.bind h fun e e' he => Paired.bind (many_carries ?_ ?_) fun es es' hes =>
    paired_pure (.cons he hes)
  · intro ts ts' hts
    simp only [peek_eq hts]
  · exact Paired.bind (mark_carries _ _) fun _ _ _ => h

/-- One round of calls and members, from paired expressions. -/
lemma postfixStep_paired (h : expression.Carries M (Expr.Paired M)) (e e' : Expr) (k : TokenKind)
    (he : e.Paired M e') :
    Option.Rel (Rule.Paired M (Expr.Paired M)) (postfixStep expression e k)
      (postfixStep expression e' k) := by
  unfold postfixStep
  split
  · refine .some (Paired.bind (mark_carries _ _) fun _ _ _ => ?_)
    refine Paired.bind (argumentsRule_carries h) fun args args' hargs => ?_
    exact Paired.bind (mark_carries _ _) fun c c' hc =>
      paired_pure (.call he hargs (M.merge he.span (M.span_of_token hc)))
  · refine .some (Paired.bind (mark_carries _ _) fun _ _ _ => ?_)
    refine Paired.bind (name_carries _) ?_
    rintro ⟨n, s⟩ ⟨n', s'⟩ ⟨rfl, hs⟩
    exact paired_pure (.member he (M.merge he.span hs))
  · exact .none

/-- Operators in front of an operand. -/
lemma prefixRule_carries (ho : operand.Carries M (Expr.Paired M))
    (he : expression.Carries M (Expr.Paired M)) (hg : group.Carries M (Expr.Paired M)) :
    (prefixRule operand expression group).Carries M (Expr.Paired M) := by
  refine Paired.bind_next fun k => ?_
  split
  · refine Paired.bind (word_carries _ _) fun sign sign' hsign => Paired.bind ho fun e e' h => ?_
    exact paired_pure (.unary h (M.merge (M.span_of_token hsign) h.span))
  · refine Paired.bind (mark_carries _ _) fun sign sign' hsign => Paired.bind ho fun e e' h => ?_
    exact paired_pure (Expr.Paired.join (.lit (M.span_of_token hsign)) h)
  · exact Paired.bind (primaryRule_carries hg) fun e e' h =>
      iterate_paired (postfixStep_paired he) h

/-- An expression in parentheses. -/
lemma groupRule_carries (h : expression.Carries M (Expr.Paired M)) :
    (groupRule expression).Carries M (Expr.Paired M) :=
  Paired.bind h fun _ _ he => Paired.bind (mark_carries _ _) fun _ _ _ => paired_pure he

/-- **Operands.**

**Proof sketch.** Strong induction on the number of levels: parentheses take two of them. -/
lemma operandRule_carries (depth : Nat) : (operandRule depth).Carries M (Expr.Paired M) := by
  induction depth using Nat.strongRecOn with
  | _ depth ih =>
    cases depth with
    | zero => exact fault_carries _
    | succ depth =>
      rw [operandRule_succ]
      have hd := ih depth (Nat.lt_succ_self depth)
      refine prefixRule_carries hd (expressionRule_carries hd) ?_
      cases depth with
      | zero => exact fault_carries _
      | succ inner => exact groupRule_carries (expressionRule_carries (ih inner (by omega)))

/-! ## Statements -/

/-- Names of types that were read: the same type, at tokens that stand for each other. -/
def TypePaired (M : Pairing) (x x' : Ty × Token) : Prop := x.1 = x'.1 ∧ M.token x.2 x'.2

/-- The name of a type. -/
lemma typeRule_carries : typeRule.Carries M (TypePaired M) := by
  intro ts ts' hts
  cases hts with
  | nil => exact expected_carries _ .nil
  | @cons t t' rest rest' ht hrest =>
    rw [typeRule, typeRule, ← M.kind_eq ht]
    cases tyOfKind? t.kind with
    | some type => exact .ok ⟨rfl, ht⟩ hrest
    | none =>
      dsimp only
      split
      · exact fault_carries _ (.cons ht hrest)
      · exact expected_carries _ (.cons ht hrest)

/-- Declarations of variables. -/
lemma declarationRule_carries (h : expression.Carries M (Expr.Paired M)) :
    (declarationRule expression).Carries M (Stmt.Paired M) := by
  refine Paired.bind typeRule_carries ?_
  rintro ⟨type, start⟩ ⟨type', start'⟩ ⟨rfl, hstart⟩
  refine Paired.bind (name_carries _) ?_
  rintro ⟨n, s⟩ ⟨n', s'⟩ ⟨rfl, hs⟩
  dsimp only
  cases type.default? with
  | none => exact paired_faultAt hstart _
  | some value =>
    dsimp only
    refine Paired.bind_next fun k => ?_
    have hend : ∀ init init' : Expr, init.Paired M init' → Rule.Paired M (Stmt.Paired M)
        (do let semi ← mark .semi "after variable declaration"
            pure (.declare type n init (start.span.merge semi.span)))
        (do let semi ← mark .semi "after variable declaration"
            pure (.declare type n init' (start'.span.merge semi.span))) := by
      intro init init' hinit
      refine Paired.bind (mark_carries _ _) fun semi semi' hsemi => paired_pure ?_
      exact .declare hinit (M.merge (M.span_of_token hstart) (M.span_of_token hsemi))
    split
    · exact Paired.bind (mark_carries _ _) fun _ _ _ => Paired.bind h hend
    · exact Paired.bind (paired_pure (.lit hs)) hend

/-- Types are misspelled in both readings alike. -/
lemma misspelledType?_eq {ts ts' : List Token} (h : List.Forall₂ M.token ts ts') :
    misspelledType? ts = misspelledType? ts' := by
  cases h with
  | nil => rfl
  | cons ht hrest =>
    cases hrest with
    | nil => rfl
    | cons hu _ => rw [misspelledType?, misspelledType?, M.kind_eq ht, M.kind_eq hu]

/-- What stands in a block. -/
lemma itemRule_carries (he : expression.Carries M (Expr.Paired M))
    (hs : statement.Carries M (Stmt.Paired M)) :
    (itemRule expression statement).Carries M (Stmt.Paired M) := by
  intro ts ts' hts
  rw [itemRule, itemRule, ← peek_eq hts, ← misspelledType?_eq hts]
  split
  · exact declarationRule_carries he hts
  · cases misspelledType? ts with
    | some n => exact fault_carries _ hts
    | none => exact hs hts

/-- Blocks. -/
lemma blockRule_carries (he : expression.Carries M (Expr.Paired M))
    (hs : statement.Carries M (Stmt.Paired M)) :
    (blockRule expression statement).Carries M (Block.Paired M) := by
  refine Paired.bind (mark_carries _ _) fun o o' ho => ?_
  refine Paired.bind (many_carries ?_ (itemRule_carries he hs)) fun body body' hbody => ?_
  · intro ts ts' hts
    rw [inBlock, inBlock, peek_eq hts]
  · exact Paired.bind (mark_carries _ _) fun c c' hc =>
      paired_pure ⟨hbody, M.merge (M.span_of_token ho) (M.span_of_token hc)⟩

/-- Conditions in parentheses. -/
lemma conditionRule_carries (h : expression.Carries M (Expr.Paired M)) (place : String) :
    (conditionRule expression place).Carries M (Expr.Paired M) :=
  Paired.bind (mark_carries _ _) fun _ _ _ => Paired.bind h fun _ _ hc =>
    Paired.bind (mark_carries _ _) fun _ _ _ => paired_pure hc

/-- An `if`, with an `else` in both readings or in none. -/
lemma ifRule_carries (he : expression.Carries M (Expr.Paired M))
    (hs : statement.Carries M (Stmt.Paired M)) :
    (ifRule expression statement).Carries M (Stmt.Paired M) := by
  refine Paired.bind (word_carries _ _) fun start start' hstart => ?_
  refine Paired.bind (conditionRule_carries he _) fun c c' hc => Paired.bind hs fun t t' ht => ?_
  have hspan := M.merge (M.span_of_token hstart) ht.span
  refine Paired.bind_next fun k => Paired.ite ?_ (paired_pure (.ifThen hc ht hspan))
  exact Paired.bind (word_carries _ _) fun _ _ _ => Paired.bind hs fun e e' h =>
    paired_pure (.ifElse hc ht h (M.merge hspan h.span))

/-- Loops. -/
lemma whileRule_carries (he : expression.Carries M (Expr.Paired M))
    (hs : statement.Carries M (Stmt.Paired M)) :
    (whileRule expression statement).Carries M (Stmt.Paired M) := by
  refine Paired.bind (word_carries _ _) fun start start' hstart => ?_
  refine Paired.bind (conditionRule_carries he _) fun c c' hc => Paired.bind hs fun b b' hb => ?_
  exact paired_pure (.while_ hc hb (M.merge (M.span_of_token hstart) hb.span))

/-- A `return`, with a value in both readings or in none. -/
lemma returnRule_carries (h : expression.Carries M (Expr.Paired M)) :
    (returnRule expression).Carries M (Stmt.Paired M) := by
  refine Paired.bind (word_carries _ _) fun start start' hstart => Paired.bind_next fun k => ?_
  have hend : ∀ v v' : Option Expr, Option.Rel (Expr.Paired M) v v' →
      Rule.Paired M (Stmt.Paired M)
        (do let semi ← mark .semi "after return"; pure (.return_ v (start.span.merge semi.span)))
        (do let semi ← mark .semi "after return"
            pure (.return_ v' (start'.span.merge semi.span))) := by
    intro v v' hv
    refine Paired.bind (mark_carries _ _) fun semi semi' hsemi => paired_pure ?_
    exact .return_ hv (M.merge (M.span_of_token hstart) (M.span_of_token hsemi))
  split
  · exact Paired.bind (paired_pure .none) hend
  · rw [map_eq_bind]
    exact Paired.bind (Paired.bind h fun _ _ he => paired_pure (.some he)) hend

/-- Expressions with a semicolon. -/
lemma evalRule_carries (h : expression.Carries M (Expr.Paired M)) :
    (evalRule expression).Carries M (Stmt.Paired M) :=
  Paired.bind h fun _ _ he => Paired.bind (mark_carries _ _) fun _ _ hsemi =>
    paired_pure (.eval he (M.merge he.span (M.span_of_token hsemi)))

/-- All forms of statements. -/
lemma statementFormRule_carries (he : expression.Carries M (Expr.Paired M))
    (hs : statement.Carries M (Stmt.Paired M)) :
    (statementFormRule expression statement).Carries M (Stmt.Paired M) := by
  refine Paired.bind_next fun k => ?_
  split
  · exact ifRule_carries he hs
  · exact whileRule_carries he hs
  · exact returnRule_carries he
  · exact Paired.bind (blockRule_carries he hs) fun _ _ hb => paired_pure (.block hb.body hb.span)
  · exact evalRule_carries he

/-- Statements, by induction over the levels left. -/
lemma statementRule_carries (depth : Nat) : (statementRule depth).Carries M (Stmt.Paired M) := by
  induction depth with
  | zero => exact fault_carries _
  | succ depth ih =>
    exact statementFormRule_carries (expressionRule_carries (operandRule_carries depth)) ih

/-- The bodies of functions. -/
lemma bodyRule_carries : bodyRule.Carries M (Block.Paired M) :=
  blockRule_carries (expressionRule_carries (operandRule_carries maxDepth))
    (statementRule_carries maxDepth)

/-! ## Programs and libraries -/

/-- Imports. -/
lemma importRule_carries : importRule.Carries M (Import.Paired M) := by
  refine Paired.bind (word_carries _ _) fun start start' hstart => Paired.bind (name_carries _) ?_
  rintro ⟨n, s⟩ ⟨n', s'⟩ ⟨rfl, -⟩
  exact Paired.bind (mark_carries _ _) fun semi semi' hsemi =>
    paired_pure ⟨rfl, M.merge (M.span_of_token hstart) (M.span_of_token hsemi)⟩

/-- The parameters of a function. -/
lemma paramsRule_carries (function : String) :
    (paramsRule function).Carries M (List.Forall₂ (Param.Paired M)) := by
  refine Paired.bind_next fun k => Paired.ite (paired_pure .nil) ?_
  refine Paired.bind typeRule_carries ?_
  rintro ⟨type, start⟩ ⟨type', start'⟩ ⟨rfl, hstart⟩
  refine Paired.bind (name_carries _) ?_
  rintro ⟨n, s⟩ ⟨n', s'⟩ ⟨rfl, hs⟩
  refine Paired.bind_next fun k => Paired.ite (fault_carries _) (paired_pure ?_)
  exact .cons ⟨rfl, rfl, M.merge (M.span_of_token hstart) hs⟩ .nil

/-- Functions. -/
lemma functionRule_carries : functionRule.Carries M (Function.Paired M) := by
  refine Paired.bind typeRule_carries ?_
  rintro ⟨type, start⟩ ⟨type', start'⟩ ⟨rfl, hstart⟩
  refine Paired.bind (word_carries _ _) fun _ _ _ => Paired.bind (name_carries _) ?_
  rintro ⟨n, s⟩ ⟨n', s'⟩ ⟨rfl, -⟩
  refine Paired.bind (mark_carries _ _) fun _ _ _ => ?_
  refine Paired.bind (paramsRule_carries n) fun ps ps' hps => ?_
  refine Paired.bind (mark_carries _ _) fun _ _ _ => ?_
  exact Paired.bind bodyRule_carries fun b b' hb =>
    paired_pure ⟨rfl, rfl, hps, hb, M.merge (M.span_of_token hstart) hb.span⟩

/-- The function `main`. -/
lemma mainRule_carries : mainRule.Carries M (Function.Paired M) := by
  refine Paired.bind (word_carries _ _) fun start start' hstart => ?_
  refine Paired.bind (mark_carries _ _) fun _ _ _ => Paired.bind (mark_carries _ _) fun _ _ _ => ?_
  exact Paired.bind bodyRule_carries fun b b' hb =>
    paired_pure ⟨rfl, rfl, .nil, hb, M.merge (M.span_of_token hstart) hb.span⟩

/-- An import is ahead in both readings or in none. -/
lemma importAhead_eq {ts ts' : List Token} (h : List.Forall₂ M.token ts ts') :
    importAhead ts = importAhead ts' := by
  rw [importAhead, importAhead, peek_eq h]

/-- A function is ahead in both readings or in none. -/
lemma functionAhead_eq {ts ts' : List Token} (h : List.Forall₂ M.token ts ts') :
    functionAhead ts = functionAhead ts' := by
  cases h with
  | nil => rfl
  | cons ht hrest => rw [functionAhead, functionAhead, M.kind_eq ht, peek_eq hrest]

/-- **Programs**, read for files that stand for each other. -/
lemma programRule_paired {file file' : String} (hfile : M.file file file') :
    Rule.Paired M (Program.Paired M) (programRule file) (programRule file') := by
  refine Paired.bind (many_carries (fun _ _ => importAhead_eq) importRule_carries) ?_
  intro is is' his
  refine Paired.bind (many_carries (fun _ _ => functionAhead_eq) functionRule_carries) ?_
  intro fs fs' hfs
  refine Paired.bind_next fun k => Paired.ite ?_ (expected_carries _)
  refine Paired.bind mainRule_carries fun m m' hm => Paired.bind_next fun k => ?_
  exact Paired.ite (paired_pure ⟨his, hfs, hm, hfile⟩) (expected_carries _)

/-- What stands in a library. -/
lemma libraryItemRule_carries :
    libraryItemRule.Carries M (Option.Rel (Function.Paired M)) := by
  intro ts ts' hts
  rw [libraryItemRule, libraryItemRule, ← importAhead_eq hts, ← functionAhead_eq hts, ← peek_eq hts]
  split
  · exact Paired.bind importRule_carries (fun _ _ _ => paired_pure .none) hts
  · split
    · rw [map_eq_bind]
      exact Paired.bind functionRule_carries (fun _ _ hf => paired_pure (.some hf)) hts
    · exact fault_carries _ hts

/-- Leaving out what is missing in both lists keeps them paired. -/
lemma forall₂_filterMap_id {R : α → α → Prop} {xs xs' : List (Option α)}
    (h : List.Forall₂ (Option.Rel R) xs xs') :
    List.Forall₂ R (xs.filterMap id) (xs'.filterMap id) := by
  induction h with
  | nil => exact .nil
  | cons hx _ ih =>
    cases hx with
    | none => exact ih
    | some ha => exact .cons ha ih

/-- **Libraries.** -/
lemma libraryRule_carries : libraryRule.Carries M (List.Forall₂ (Function.Paired M)) := by
  refine Paired.bind (many_carries ?_ libraryItemRule_carries) fun items items' hitems =>
    paired_pure (forall₂_filterMap_id hitems)
  intro ts ts' hts
  simp only [peek_eq hts]

/-! ## Tokens up to the end of a file -/

/-- The tokens of a text end in an end-of-file token, and there is none before it. -/
lemma scan_endsOnce {text file : String} {tokens : List Token} (h : scan text file = .ok tokens) :
    EndsOnce tokens := by
  obtain ⟨body, last, rfl, hlast, hbody⟩ := scan_kinds h
  refine ⟨body, last, rfl, hlast, fun hmem => ?_⟩
  obtain ⟨t, ht, hkind⟩ := List.mem_map.1 hmem
  exact absurd (hbody t ht) (by rw [hkind]; exact id)

/-- The last of paired lists are paired. -/
lemma forall₂_concat {R : α → β → Prop} {xs : List α} {x : α} {ys : List β}
    (h : List.Forall₂ R (xs ++ [x]) ys) :
    ∃ xs' x', ys = xs' ++ [x'] ∧ List.Forall₂ R xs xs' ∧ R x x' := by
  induction xs generalizing ys with
  | nil =>
    cases h with
    | cons hx hnil =>
      cases hnil
      exact ⟨[], _, rfl, .nil, hx⟩
  | cons a as ih =>
    cases h with
    | cons ha has =>
      obtain ⟨xs', x', rfl, hxs, hx⟩ := ih has
      exact ⟨_ :: xs', x', rfl, .cons ha hxs, hx⟩

/-- Results of two runs: values related by `Q`, or the same fault at places that stand for each
other. -/
inductive Pairing.Results {φ : Type} (M : Pairing) (Q : α → α → Prop) :
    Except (Located φ) α → Except (Located φ) α → Prop
  | ok {a a' : α} (ha : Q a a') : M.Results Q (.ok a) (.ok a')
  | error {e e' : Located φ} (he : e.Paired M e') : M.Results Q (.error e) (.error e')

namespace Session

/-- A reading gives a phrase, or an error in its place. -/
lemma result_read (s : Session) (r : Rule α) :
    (s.read r).1 = match r s.ahead with
      | .ok a _ => .ok a
      | .fail m _ => .error (s.locate m) := by
  unfold read
  cases r s.ahead <;> rfl

/-- **Readings of paired tokens by paired rules** have paired results. -/
lemma read_paired {s s' : Session} {Q : α → α → Prop} {r r' : Rule α}
    (hahead : List.Forall₂ M.token s.ahead s'.ahead) (hend : M.token s.fileEnd s'.fileEnd)
    (hr : Rule.Paired M Q r r') : M.Results Q (s.read r).1 (s'.read r').1 := by
  have hreply := hr hahead
  rw [result_read, result_read]
  generalize r s.ahead = reply, r' s'.ahead = reply' at hreply
  cases hreply with
  | ok ha _ => exact .ok ha
  | fail ht =>
    -- a fault without a token lies at the end of the file
    cases ht with
    | none => exact .error ⟨rfl, M.file_of_token hend, M.span_of_token hend⟩
    | some ht => exact .error ⟨rfl, M.file_of_token ht, M.span_of_token ht⟩

section Ends

variable {body : List Token} {last : Token} (hlast : last.kind = .endOfFile)

include hlast

/-- Tokens that end the file stay as they are. -/
lemma tokens_ofTokens : (ofTokens (body ++ [last])).tokens = body ++ [last] := by
  simp [ofTokens, complete, hlast]

/-- The last token ends the file. -/
lemma fileEnd_ofTokens (hbody : .endOfFile ∉ kinds body) :
    (ofTokens (body ++ [last])).fileEnd = last := by
  have hnone : body.find? (·.kind = .endOfFile) = none := by
    rw [List.find?_eq_none]
    intro t ht hk
    exact hbody (List.mem_map.2 ⟨t, ht, by simpa using hk⟩)
  rw [fileEnd, tokens_ofTokens hlast]
  simp [ofTokens, hnone, hlast]

end Ends

variable {tokens tokens' : List Token} (hends : EndsOnce tokens)
  (h : List.Forall₂ M.token tokens tokens')

include hends h

/-- The files of both readings are paired. -/
lemma file_ofTokens_paired : M.file (ofTokens tokens).file (ofTokens tokens').file := by
  obtain ⟨body, last, rfl, hlast, -⟩ := hends
  obtain ⟨body', last', rfl, hbody, hl⟩ := forall₂_concat h
  have hlast' : last'.kind = .endOfFile := M.kind_eq hl ▸ hlast
  rw [file, file, tokens_ofTokens hlast, tokens_ofTokens hlast']
  cases hbody with
  | nil => exact M.file_of_token hl
  | cons ht _ => exact M.file_of_token ht

/-- Sessions over tokens that stand for each other, up to the ends of their files, read what stands
for each other. -/
lemma read_ofTokens_paired {Q : α → α → Prop} {r r' : Rule α} (hr : Rule.Paired M Q r r') :
    M.Results Q ((ofTokens tokens).read r).1 ((ofTokens tokens').read r').1 := by
  obtain ⟨body, last, rfl, hlast, hnone⟩ := hends
  obtain ⟨body', last', rfl, hbody, hl⟩ := forall₂_concat h
  have hlast' : last'.kind = .endOfFile := M.kind_eq hl ▸ hlast
  have hnone' : .endOfFile ∉ kinds body' := by rwa [← kinds_eq hbody]
  refine read_paired ?_ ?_ hr
  · rwa [ahead_ofTokens hlast hnone, ahead_ofTokens hlast' hnone']
  · rwa [fileEnd_ofTokens hlast hnone, fileEnd_ofTokens hlast' hnone']

end Session

section Tokens

variable {tokens tokens' : List Token} (hends : EndsOnce tokens)
  (h : List.Forall₂ M.token tokens tokens')

include hends h

/-- **Reading programs carries places along.** -/
lemma parseTokens_paired :
    M.Results (Program.Paired M) (parseTokens tokens) (parseTokens tokens') :=
  Session.read_ofTokens_paired hends h
    (programRule_paired (Session.file_ofTokens_paired hends h))

/-- **Reading libraries carries places along.** -/
lemma parseLibraryTokens_paired :
    M.Results (List.Forall₂ (Function.Paired M)) (parseLibraryTokens tokens)
      (parseLibraryTokens tokens') :=
  Session.read_ofTokens_paired hends h libraryRule_carries

end Tokens

end Idyl
