import Idyl.Proofs.Grammar.Phrases

/-!
# Rules read phrases of the grammar

Whatever a rule of the grammar accepts is a phrase of the grammar, and the tree it builds is the
tree of that phrase.  There is one statement for each rule, under the assumption that the rules
for the phrases inside are sound; the rules that count levels are then sound by induction on the
number of levels.

## Main results

* `Idyl.expressionRule_sound`, `Idyl.operandRule_sound` — expressions and operands.
* `Idyl.statementRule_sound`, `Idyl.bodyRule_sound` — statements and bodies of functions.
* `Idyl.programRule_sound` — whole programs.
-/

set_option autoImplicit false

namespace Idyl

open Rule Grammar

variable {operand expression group : Rule Expr} {statement : Rule Stmt}
  {O E G : Phrase Expr} {S : Phrase Stmt}

/-! ## Binary operators and assignments -/

/-- A round is made for an operator of the level, and takes it and an operand. -/
lemma joinStep_eq_some {level : Nat} {r : Rule Expr} {l : Expr} {k : TokenKind} :
    joinStep level operand l k = some r ↔
      ∃ op, binaryOp? k = some op ∧ op.level = level ∧
        r = (do let _ ← token k ""; let right ← operand; pure (Expr.join op l right)) := by
  unfold joinStep
  cases hk : binaryOp? k with
  | none => simp
  | some op =>
    by_cases hl : op.level = level
    · simp [hl, eq_comm]
    · simp [hl]

/-- Joining takes an operator and an operand, and puts them behind what was there. -/
lemma joinStep_sound {level : Nat} (h : operand.Sound Expr.bare O) {l : Expr} {r : Rule Expr}
    {ts : List Token} {e : Expr} {rest : List Token}
    (hs : joinStep level operand l (peek ts) = some r) (hr : r ts = .ok e rest) :
    ∃ ks, kinds ts = ks ++ kinds rest ∧ Extends (Joined level O) l.bare e.bare ks := by
  obtain ⟨op, hop, hl, rfl⟩ := joinStep_eq_some.1 hs
  simp only [bind_eq_ok, token_eq_ok] at hr
  obtain ⟨t, mid, ⟨rfl, ht⟩, right, rest', hright, hr⟩ := hr
  rw [pure_apply, Reply.ok.injEq] at hr
  obtain ⟨rfl, rfl⟩ := hr
  obtain ⟨ks, hk, hO⟩ := h hright
  refine ⟨t.kind :: ks, by rw [kinds_cons, hk, List.cons_append], fun ks₀ h₀ => ?_⟩
  exact .join h₀ (sign_iff.2 ⟨hop, hl⟩) hO

/-- Soundness of binary operators, given that of operands. -/
lemma binaryRule_sound (h : operand.Sound Expr.bare O) (level : Nat) :
    (binaryRule operand level).Sound Expr.bare (Binary O level) := by
  induction level with
  | zero => exact h
  | succ level ih =>
    intro ts e rest hr
    simp only [binaryRule, bind_eq_ok] at hr
    obtain ⟨l, mid, hl, hi⟩ := hr
    obtain ⟨ks₁, hk₁, h₁⟩ := ih hl
    obtain ⟨ks₂, hk₂, h₂⟩ := iterate_sound (fun _ _ _ _ _ => joinStep_sound ih) hi
    exact ⟨ks₁ ++ ks₂, by rw [hk₁, hk₂, List.append_assoc], h₂ (.single h₁)⟩

/-- Soundness of assignments.

**Proof sketch.** Induction on the rounds.  If `=` follows an operand, the operand has to be a
variable, and what is assigned was read in the rounds that are left. -/
lemma assignmentWithin_sound (h : operand.Sound Expr.bare O) (rounds : List Token) :
    (assignmentWithin operand rounds).Sound Expr.bare (Assigned O) := by
  induction rounds with
  | nil =>
    intro ts e rest hr
    obtain ⟨ks, hk, hO⟩ := h hr
    exact ⟨ks, hk, .value hO⟩
  | cons u us ih =>
    intro ts e rest hr
    simp only [assignmentWithin, bind_eq_ok, next_bind] at hr
    obtain ⟨target, mid, ht, hr⟩ := hr
    obtain ⟨ks₁, hk₁, hO⟩ := h ht
    split at hr
    · simp only [mark, bind_eq_ok, token_eq_ok] at hr
      obtain ⟨sign, mid, ⟨rfl, hsign⟩, hr⟩ := hr
      split at hr
      · next x s =>
        simp only [bind_eq_ok] at hr
        obtain ⟨value, rest', hv, hr⟩ := hr
        rw [pure_apply, Reply.ok.injEq] at hr
        obtain ⟨rfl, rfl⟩ := hr
        obtain ⟨ks₂, hk₂, hA⟩ := ih hv
        refine ⟨ks₁ ++ .punct .assign :: ks₂, ?_, .assign hO hA⟩
        rw [hk₁, kinds_cons, hsign, hk₂, List.append_assoc, List.cons_append]
      · simp [faultAt] at hr
    · rw [pure_apply, Reply.ok.injEq] at hr
      obtain ⟨rfl, rfl⟩ := hr
      exact ⟨ks₁, hk₁, .value hO⟩

/-- Soundness of expressions. -/
lemma expressionRule_sound (h : operand.Sound Expr.bare O) :
    (expressionRule operand).Sound Expr.bare (Expression O) :=
  fun ts _ _ hr => assignmentWithin_sound (binaryRule_sound h _) ts hr

/-! ## Operands -/

/-- A rule that reads on behind an opening parenthesis, up to the closing one. -/
def ClosesGroup (group : Rule Expr) (G : Phrase Expr) : Prop :=
  ∀ ⦃ts e rest⦄, group ts = .ok e rest →
    ∃ ks, kinds ts = ks ++ .punct .rparen :: kinds rest ∧ G ks e.bare

/-- A group is an expression and a closing parenthesis. -/
lemma groupRule_sound (h : expression.Sound Expr.bare E) :
    ClosesGroup (groupRule expression) E := by
  intro ts e rest hr
  simp only [groupRule, mark, bind_eq_ok, token_eq_ok] at hr
  obtain ⟨e', mid, he, t, mid', ⟨rfl, ht⟩, hr⟩ := hr
  rw [pure_apply, Reply.ok.injEq] at hr
  obtain ⟨rfl, rfl⟩ := hr
  obtain ⟨ks, hk, hE⟩ := h he
  exact ⟨ks, by rw [hk, kinds_cons, ht], hE⟩

/-- Soundness of literals, names and groups. -/
lemma primaryRule_sound (h : ClosesGroup group G) :
    (primaryRule group).Sound Expr.bare (Primary G) := by
  intro ts e rest hr
  cases ts with
  | nil => simp [primaryRule, expected, fault] at hr
  | cons t us =>
    -- the cases are those of the token, since the rule looks at nothing else
    rw [primaryRule] at hr
    cases hk : t.kind with
    | integer text =>
      simp only [hk] at hr
      split at hr
      · next n hn =>
        obtain ⟨rfl, rfl⟩ := Reply.ok.inj hr
        exact ⟨[.integer text], by rw [kinds_cons, hk]; rfl, .integer hn⟩
      · simp [fault] at hr
    | float text =>
      simp only [hk] at hr
      split at hr
      · next x hx =>
        obtain ⟨rfl, rfl⟩ := Reply.ok.inj hr
        exact ⟨[.float text], by rw [kinds_cons, hk]; rfl, .float hx⟩
      · simp [fault] at hr
    | string value =>
      rw [hk] at hr
      obtain ⟨rfl, rfl⟩ := Reply.ok.inj hr
      exact ⟨[.string value], by rw [kinds_cons, hk]; rfl, .string⟩
    | char value =>
      rw [hk] at hr
      obtain ⟨rfl, rfl⟩ := Reply.ok.inj hr
      exact ⟨[.char value], by rw [kinds_cons, hk]; rfl, .char⟩
    | identifier x =>
      rw [hk] at hr
      obtain ⟨rfl, rfl⟩ := Reply.ok.inj hr
      exact ⟨[.identifier x], by rw [kinds_cons, hk]; rfl, .name⟩
    | keyword w =>
      rw [hk] at hr
      cases w with
      | true =>
        obtain ⟨rfl, rfl⟩ := Reply.ok.inj hr
        exact ⟨[.keyword .true], by rw [kinds_cons, hk]; rfl, .isTrue⟩
      | false =>
        obtain ⟨rfl, rfl⟩ := Reply.ok.inj hr
        exact ⟨[.keyword .false], by rw [kinds_cons, hk]; rfl, .isFalse⟩
      | _ => cases hr
    | punct m =>
      rw [hk] at hr
      cases m with
      | lparen =>
        obtain ⟨ks, hks, hG⟩ := h hr
        exact ⟨.punct .lparen :: (ks ++ [.punct .rparen]), by rw [kinds_cons, hk, hks]; simp,
          .group hG⟩
      | _ => cases hr
    | endOfFile =>
      rw [hk] at hr
      cases hr

/-- Soundness of an expression behind a comma. -/
lemma afterComma_sound (h : expression.Sound Expr.bare E) :
    (do let _ ← mark .comma ""; expression : Rule Expr).Sound Expr.bare (AfterComma E) := by
  intro ts e rest hr
  simp only [mark, bind_eq_ok, token_eq_ok] at hr
  obtain ⟨t, mid, ⟨rfl, ht⟩, hr⟩ := hr
  obtain ⟨ks, hk, hE⟩ := h hr
  exact ⟨.punct .comma :: ks, by rw [kinds_cons, ht, hk, List.cons_append], .mk hE⟩

/-- Soundness of arguments. -/
lemma argumentsRule_sound (h : expression.Sound Expr.bare E) :
    (argumentsRule expression).Sound (List.map Expr.bare) (Arguments E) := by
  intro ts es rest hr
  simp only [argumentsRule, next_bind] at hr
  split at hr
  · rw [pure_apply, Reply.ok.injEq] at hr
    obtain ⟨rfl, rfl⟩ := hr
    exact ⟨[], rfl, .none⟩
  · rw [bind_eq_ok] at hr
    obtain ⟨first, mid, hfirst, hr⟩ := hr
    rw [bind_eq_ok] at hr
    obtain ⟨others, rest', hmany, hr⟩ := hr
    rw [pure_apply, Reply.ok.injEq] at hr
    obtain ⟨rfl, rfl⟩ := hr
    obtain ⟨ks₁, hk₁, h₁⟩ := h hfirst
    obtain ⟨ks₂, hk₂, h₂⟩ := many_sound (fun _ _ _ _ hi => afterComma_sound h hi) hmany
    exact ⟨ks₁ ++ ks₂, by rw [hk₁, hk₂, List.append_assoc], .some h₁ h₂⟩

/-- The rules behind a phrase: a call for an opening parenthesis, a member for a point. -/
lemma postfixStep_eq_some {e : Expr} {k : TokenKind} {r : Rule Expr} :
    postfixStep expression e k = some r ↔
      (k = .punct .lparen ∧ r = (do
        let _ ← mark .lparen ""
        let args ← argumentsRule expression
        let close ← mark .rparen "after arguments"
        pure (.call e args (e.span.merge close.span)))) ∨
      (k = .punct .dot ∧ r = (do
        let _ ← mark .dot ""
        let (n, span) ← name "property name after '.'"
        pure (.member e n (e.span.merge span)))) := by
  unfold postfixStep
  split
  · simp [eq_comm]
  · simp [eq_comm]
  · next h₁ h₂ =>
    simp only [reduceCtorEq, false_iff]
    rintro (⟨hk, -⟩ | ⟨hk, -⟩)
    · exact h₁ hk
    · exact h₂ hk

/-- Taking a call or a member puts its tokens behind what was there. -/
lemma postfixStep_sound {P : Phrase Expr} (h : expression.Sound Expr.bare E) {o : Expr}
    {r : Rule Expr} {ts : List Token} {e : Expr} {rest : List Token}
    (hs : postfixStep expression o (peek ts) = some r) (hr : r ts = .ok e rest) :
    ∃ ks, kinds ts = ks ++ kinds rest ∧ Extends (Suffixed P E) o.bare e.bare ks := by
  rcases postfixStep_eq_some.1 hs with ⟨-, rfl⟩ | ⟨-, rfl⟩
  · simp only [mark, bind_eq_ok, token_eq_ok] at hr
    obtain ⟨t, _, ⟨rfl, ht⟩, args, _, ha, t', _, ⟨rfl, ht'⟩, hr⟩ := hr
    rw [pure_apply, Reply.ok.injEq] at hr
    obtain ⟨rfl, rfl⟩ := hr
    obtain ⟨ks, hk, hA⟩ := argumentsRule_sound h ha
    refine ⟨.punct .lparen :: (ks ++ [.punct .rparen]), ?_, fun ks₀ h₀ => ?_⟩
    · simp [ht, hk, ht']
    · rw [Expr.bare, Expr.bareAll_eq_map]
      exact .call h₀ hA
  · simp only [mark, bind_eq_ok, token_eq_ok] at hr
    obtain ⟨t, _, ⟨rfl, ht⟩, ⟨n, s⟩, _, hn, hr⟩ := hr
    obtain ⟨t', rfl, ht', rfl⟩ := name_eq_ok.1 hn
    rw [pure_apply, Reply.ok.injEq] at hr
    obtain ⟨rfl, rfl⟩ := hr
    refine ⟨[.punct .dot, .identifier n], by simp [ht, ht'], fun ks₀ h₀ => ?_⟩
    rw [Expr.bare]
    exact .member h₀

/-- Soundness of operators in front of operands. -/
lemma prefixRule_sound (ho : operand.Sound Expr.bare O) (he : expression.Sound Expr.bare E)
    (hg : ClosesGroup group G) :
    (prefixRule operand expression group).Sound Expr.bare (Signed O E G) := by
  intro ts e rest hr
  simp only [prefixRule, next_bind] at hr
  generalize peek ts = k at hr
  split at hr
  · simp only [word, bind_eq_ok, token_eq_ok] at hr
    obtain ⟨t, _, ⟨rfl, ht⟩, e', _, h', hr⟩ := hr
    rw [pure_apply, Reply.ok.injEq] at hr
    obtain ⟨rfl, rfl⟩ := hr
    obtain ⟨ks, hk, hO⟩ := ho h'
    exact ⟨.keyword .not :: ks, by simp [ht, hk], .negation hO⟩
  · simp only [mark, bind_eq_ok, token_eq_ok] at hr
    obtain ⟨t, _, ⟨rfl, ht⟩, e', _, h', hr⟩ := hr
    rw [pure_apply, Reply.ok.injEq] at hr
    obtain ⟨rfl, rfl⟩ := hr
    obtain ⟨ks, hk, hO⟩ := ho h'
    exact ⟨.punct .minus :: ks, by simp [ht, hk], .minus hO⟩
  · rw [bind_eq_ok] at hr
    obtain ⟨e', mid, hp, hi⟩ := hr
    obtain ⟨ks₁, hk₁, h₁⟩ := primaryRule_sound hg hp
    obtain ⟨ks₂, hk₂, h₂⟩ := iterate_sound (fun _ _ _ _ _ => postfixStep_sound he) hi
    exact ⟨ks₁ ++ ks₂, by rw [hk₁, hk₂, List.append_assoc], .plain (h₂ (.primary h₁))⟩

/-- What is read behind an opening parenthesis, with the given number of levels left. -/
def groupRuleAt : Nat → Rule Expr
  | 0 => fault (.tooDeep .expression)
  | depth + 1 => groupRule (expressionRule (operandRule depth))

/-- The rule for operands with a level left, by what may stand inside them. -/
lemma operandRule_succ (depth : Nat) :
    operandRule (depth + 1) =
      prefixRule (operandRule depth) (expressionRule (operandRule depth)) (groupRuleAt depth) := by
  cases depth <;> rfl

/-- **Soundness of operands**: an operand that is read with some levels left is nested at most
that deep.

**Proof sketch.** Strong induction on the number of levels: an operator in front and the arguments
of a call have one level less, an expression in parentheses has two less. -/
lemma operandRule_sound (depth : Nat) : (operandRule depth).Sound Expr.bare (Operand depth) := by
  induction depth using Nat.strongRecOn with
  | _ depth ih =>
    cases depth with
    | zero => intro ts e rest hr; simp [operandRule, fault] at hr
    | succ depth =>
      rw [operandRule_succ, operand_succ]
      have hd := ih depth (Nat.lt_succ_self depth)
      refine prefixRule_sound hd (expressionRule_sound hd) ?_
      cases depth with
      | zero => intro ts e rest hr; simp [groupRuleAt, fault] at hr
      | succ inner => exact groupRule_sound (expressionRule_sound (ih inner (by omega)))

/-! ## Declarations and blocks -/

/-- A type is read from a token that names one. -/
lemma typeRule_eq_ok {ts rest : List Token} {t : Token} {type : Ty} :
    typeRule ts = .ok (type, t) rest ↔ ts = t :: rest ∧ tyOfKind? t.kind = some type := by
  cases ts with
  | nil => simp [typeRule, expected, fault]
  | cons u us =>
    simp only [typeRule, List.cons.injEq]
    split
    · next type' h =>
      simp only [Reply.ok.injEq, Prod.mk.injEq]
      constructor
      · rintro ⟨⟨rfl, rfl⟩, rfl⟩
        exact ⟨⟨rfl, rfl⟩, h⟩
      · rintro ⟨⟨rfl, rfl⟩, ht⟩
        rw [h, Option.some.injEq] at ht
        exact ⟨⟨ht, rfl⟩, rfl⟩
    · next h =>
      have hne : ¬ ((u = t ∧ us = rest) ∧ tyOfKind? t.kind = some type) := by
        rintro ⟨⟨rfl, -⟩, ht⟩
        simp [h] at ht
      split <;> simpa [expected, fault] using hne

/-- Soundness of declarations. -/
lemma declarationRule_sound (h : expression.Sound Expr.bare E) :
    (declarationRule expression).Sound Stmt.bare (Declaration E) := by
  intro ts s rest hr
  simp only [declarationRule] at hr
  rw [bind_eq_ok] at hr
  obtain ⟨⟨type, start⟩, _, ht, hr⟩ := hr
  obtain ⟨rfl, htype⟩ := typeRule_eq_ok.1 ht
  rw [bind_eq_ok] at hr
  obtain ⟨⟨n, span⟩, _, hn, hr⟩ := hr
  obtain ⟨t, rfl, hname, rfl⟩ := name_eq_ok.1 hn
  dsimp only at hr
  cases hv : type.default? with
  | none => simp [hv, faultAt] at hr
  | some v =>
    simp only [hv, next_bind] at hr
    split at hr
    · simp only [mark, bind_eq_ok, token_eq_ok] at hr
      obtain ⟨t₁, _, ⟨rfl, h₁⟩, init, _, hi, t₂, _, ⟨rfl, h₂⟩, hr⟩ := hr
      rw [pure_apply, Reply.ok.injEq] at hr
      obtain ⟨rfl, rfl⟩ := hr
      obtain ⟨ks, hk, hE⟩ := h hi
      refine ⟨start.kind :: .identifier n :: .punct .assign :: (ks ++ [.punct .semi]), ?_,
        .value htype ?_ hE⟩
      · simp [hname, h₁, hk, h₂]
      · rintro rfl
        simp [Ty.default?] at hv
    · simp only [mark, bind_eq_ok, token_eq_ok] at hr
      obtain ⟨init, _, hi, t₁, _, ⟨rfl, h₁⟩, hr⟩ := hr
      rw [pure_apply, Reply.ok.injEq] at hi hr
      obtain ⟨rfl, rfl⟩ := hi
      obtain ⟨rfl, rfl⟩ := hr
      exact ⟨[start.kind, .identifier n, .punct .semi], by simp [hname, h₁], .default htype hv⟩

/-- Whether a type is misspelled is told by the kinds of tokens. -/
lemma misspelledType?_eq_none {ts : List Token} :
    misspelledType? ts = none ↔ misspelled (kinds ts) = false := by
  rcases ts with _ | ⟨t, _ | ⟨u, us⟩⟩
  · simp [misspelledType?, misspelled]
  · simp only [misspelledType?, kinds_cons, kinds_nil, true_iff]
    cases t.kind <;> rfl
  · simp only [misspelledType?, kinds_cons]
    generalize t.kind = k, u.kind = k'
    split
    · simp [misspelled]
    · simp [misspelled]
    · next h₁ h₂ =>
      simp only [true_iff]
      unfold misspelled
      split
      · next heq => simp only [List.cons.injEq] at heq; exact absurd heq.2.1 (h₁ _ _ heq.1)
      · next heq => simp only [List.cons.injEq] at heq; exact absurd heq.2.1 (h₂ _ heq.1)
      · rfl

/-- Only the first two tokens count. -/
lemma misspelled_cons_cons (k k' : TokenKind) (ks ks' : List TokenKind) :
    misspelled (k :: k' :: ks) = misspelled (k :: k' :: ks') := by
  cases k with
  | identifier n =>
    cases k' with
    | punct mark => cases mark <;> rfl
    | _ => rfl
  | _ => rfl

/-- A misspelled type shows at the front. -/
lemma misspelled_of_append {ks ks' : List TokenKind} (h : misspelled (ks ++ ks') = false) :
    misspelled ks = false := by
  rcases ks with _ | ⟨k, _ | ⟨k', ks⟩⟩
  · rfl
  · cases k <;> rfl
  · rw [misspelled_cons_cons k k' ks (ks ++ ks')]
    exact h

/-- A statement in a block is read only where no misspelled declaration stands. -/
lemma itemRule_sound (he : expression.Sound Expr.bare E) (hs : statement.Sound Stmt.bare S) :
    (itemRule expression statement).Sound Stmt.bare (Item E S) := by
  intro ts s rest hr
  simp only [itemRule] at hr
  split at hr
  · obtain ⟨ks, hk, hD⟩ := declarationRule_sound he hr
    exact ⟨ks, hk, .declaration hD⟩
  · split at hr
    · simp [fault] at hr
    · next hm =>
      obtain ⟨ks, hk, hS⟩ := hs hr
      rw [misspelledType?_eq_none, hk] at hm
      exact ⟨ks, hk, .statement hS (misspelled_of_append hm)⟩

/-- Soundness of blocks. -/
lemma blockRule_sound (he : expression.Sound Expr.bare E) (hs : statement.Sound Stmt.bare S) :
    (blockRule expression statement).Sound Block.bare (Braces E S) := by
  intro ts b rest hr
  simp only [blockRule, mark, bind_eq_ok, token_eq_ok] at hr
  obtain ⟨t₁, _, ⟨rfl, h₁⟩, body, _, hb, t₂, _, ⟨rfl, h₂⟩, hr⟩ := hr
  rw [pure_apply, Reply.ok.injEq] at hr
  obtain ⟨rfl, rfl⟩ := hr
  obtain ⟨ks, hk, hB⟩ := many_sound (fun _ _ _ _ hi => itemRule_sound he hs hi) hb
  exact ⟨.punct .lbrace :: (ks ++ [.punct .rbrace]), by simp [h₁, hk, h₂], .mk hB⟩

/-! ## Statements -/

/-- A condition is an expression between parentheses. -/
lemma conditionRule_eq_ok {place : String} {ts rest : List Token} {c : Expr} :
    conditionRule expression place ts = .ok c rest ↔
      ∃ t mid t', ts = t :: mid ∧ t.kind = .punct .lparen ∧
        expression mid = .ok c (t' :: rest) ∧ t'.kind = .punct .rparen := by
  simp only [conditionRule, mark, bind_eq_ok, token_eq_ok, pure_apply, Reply.ok.injEq]
  constructor
  · rintro ⟨t, mid, ⟨rfl, ht⟩, c', _, hc, t', _, ⟨rfl, ht'⟩, rfl, rfl⟩
    exact ⟨t, mid, t', rfl, ht, hc, ht'⟩
  · rintro ⟨t, mid, t', rfl, ht, hc, ht'⟩
    exact ⟨t, mid, ⟨rfl, ht⟩, c, _, hc, t', rest, ⟨rfl, ht'⟩, rfl, rfl⟩

/-- Behind a statement that ends in an `if` without `else`, no `else` is left. -/
def TakesElse (statement : Rule Stmt) : Prop :=
  ∀ ⦃ts s rest⦄, statement ts = .ok s rest → s.endsOpen = true → peek rest ≠ .keyword .else_

/-- Soundness of `if`, where an `else` is taken if there is one. -/
lemma ifRule_sound (he : expression.Sound Expr.bare E) (hs : statement.Sound Stmt.bare S)
    (ho : TakesElse statement) : (ifRule expression statement).Sound Stmt.bare (Form E S) := by
  intro ts s rest hr
  simp only [ifRule, word, bind_eq_ok, token_eq_ok, next_bind, conditionRule_eq_ok] at hr
  obtain ⟨t₀, _, ⟨rfl, h₀⟩, c, _, ⟨t₁, _, t₂, rfl, h₁, hc, h₂⟩, s₁, mid, hs₁, hr⟩ := hr
  obtain ⟨ks, hk, hE⟩ := he hc
  obtain ⟨ks₁, hk₁, hS₁⟩ := hs hs₁
  split at hr
  · next helse =>
    simp only [bind_eq_ok, token_eq_ok] at hr
    obtain ⟨t₃, _, ⟨rfl, h₃⟩, s₂, _, hs₂, hr⟩ := hr
    rw [pure_apply, Reply.ok.injEq] at hr
    obtain ⟨rfl, rfl⟩ := hr
    obtain ⟨ks₂, hk₂, hS₂⟩ := hs hs₂
    refine ⟨.keyword .if_ :: .punct .lparen ::
      (ks ++ .punct .rparen :: (ks₁ ++ .keyword .else_ :: ks₂)), ?_, .ifElse hE hS₁ ?_ hS₂⟩
    · simp [h₀, h₁, hk, h₂, hk₁, h₃, hk₂]
    · -- an open branch would have taken the `else` itself
      rw [Stmt.endsOpen_bare, Bool.eq_false_iff]
      exact fun hopen => ho hs₁ hopen helse
  · rw [pure_apply, Reply.ok.injEq] at hr
    obtain ⟨rfl, rfl⟩ := hr
    refine ⟨.keyword .if_ :: .punct .lparen :: (ks ++ .punct .rparen :: ks₁), ?_, .ifThen hE hS₁⟩
    simp [h₀, h₁, hk, h₂, hk₁]

/-- Soundness of loops. -/
lemma whileRule_sound (he : expression.Sound Expr.bare E) (hs : statement.Sound Stmt.bare S) :
    (whileRule expression statement).Sound Stmt.bare (Form E S) := by
  intro ts s rest hr
  simp only [whileRule, word, bind_eq_ok, token_eq_ok, conditionRule_eq_ok] at hr
  obtain ⟨t₀, _, ⟨rfl, h₀⟩, c, _, ⟨t₁, _, t₂, rfl, h₁, hc, h₂⟩, s₁, _, hs₁, hr⟩ := hr
  rw [pure_apply, Reply.ok.injEq] at hr
  obtain ⟨rfl, rfl⟩ := hr
  obtain ⟨ks, hk, hE⟩ := he hc
  obtain ⟨ks₁, hk₁, hS⟩ := hs hs₁
  refine ⟨.keyword .while_ :: .punct .lparen :: (ks ++ .punct .rparen :: ks₁), ?_, .while_ hE hS⟩
  simp [h₀, h₁, hk, h₂, hk₁]

/-- Soundness of `return`. -/
lemma returnRule_sound (he : expression.Sound Expr.bare E) :
    (returnRule expression).Sound Stmt.bare (Form E S) := by
  intro ts s rest hr
  simp only [returnRule, word, bind_eq_ok, token_eq_ok, next_bind] at hr
  obtain ⟨t₀, _, ⟨rfl, h₀⟩, hr⟩ := hr
  split at hr
  · simp only [mark, bind_eq_ok, token_eq_ok] at hr
    obtain ⟨v, _, hv, t₁, _, ⟨rfl, h₁⟩, hr⟩ := hr
    rw [pure_apply, Reply.ok.injEq] at hv hr
    obtain ⟨rfl, rfl⟩ := hv
    obtain ⟨rfl, rfl⟩ := hr
    exact ⟨[.keyword .return_, .punct .semi], by simp [h₀, h₁], .returnNone⟩
  · simp only [map_eq_bind, mark, bind_eq_ok, token_eq_ok, pure_apply, Reply.ok.injEq] at hr
    obtain ⟨v, _, ⟨e, _, hv, rfl, rfl⟩, t₁, _, ⟨rfl, h₁⟩, rfl, rfl⟩ := hr
    obtain ⟨ks, hk, hE⟩ := he hv
    exact ⟨.keyword .return_ :: (ks ++ [.punct .semi]), by simp [h₀, hk, h₁], .returnSome hE⟩

/-- Soundness of expressions with a semicolon. -/
lemma evalRule_sound (he : expression.Sound Expr.bare E) :
    (evalRule expression).Sound Stmt.bare (Form E S) := by
  intro ts s rest hr
  simp only [evalRule, mark, bind_eq_ok, token_eq_ok, pure_apply, Reply.ok.injEq] at hr
  obtain ⟨e, _, hv, t₁, _, ⟨rfl, h₁⟩, rfl, rfl⟩ := hr
  obtain ⟨ks, hk, hE⟩ := he hv
  exact ⟨ks ++ [.punct .semi], by simp [hk, h₁], .eval hE⟩

/-- Soundness of all forms of statements. -/
lemma statementFormRule_sound (he : expression.Sound Expr.bare E)
    (hs : statement.Sound Stmt.bare S) (ho : TakesElse statement) :
    (statementFormRule expression statement).Sound Stmt.bare (Form E S) := by
  intro ts s rest hr
  simp only [statementFormRule, next_bind] at hr
  generalize peek ts = k at hr
  split at hr
  · exact ifRule_sound he hs ho hr
  · exact whileRule_sound he hs hr
  · exact returnRule_sound he hr
  · simp only [bind_eq_ok, pure_apply, Reply.ok.injEq] at hr
    obtain ⟨b, _, hb, rfl, rfl⟩ := hr
    obtain ⟨ks, hk, hB⟩ := blockRule_sound he hs hb
    refine ⟨ks, hk, ?_⟩
    rw [Stmt.bare, Stmt.bareAll_eq_map]
    exact .block hB
  · exact evalRule_sound he hr

/-- Statements at every depth take an `else` that could belong to them.

**Proof sketch.** Induction on the number of levels.  An `if` without `else` was given because no
`else` was ahead; any other open statement ends in a statement one level down, behind which none
is ahead either. -/
lemma statementRule_takesElse (depth : Nat) : TakesElse (statementRule depth) := by
  induction depth with
  | zero => intro ts s rest hr; simp [statementRule, fault] at hr
  | succ depth ih =>
    intro ts s rest hr hopen
    simp only [statementRule, statementFormRule, next_bind] at hr
    generalize peek ts = k at hr
    split at hr
    · simp only [ifRule, word, bind_eq_ok, token_eq_ok, next_bind] at hr
      obtain ⟨_, _, -, c, _, -, s₁, mid, -, hr⟩ := hr
      split at hr
      · simp only [bind_eq_ok, pure_apply, Reply.ok.injEq] at hr
        obtain ⟨_, _, -, s₂, _, hs₂, rfl, rfl⟩ := hr
        exact ih hs₂ hopen
      · next helse =>
        simp only [pure_apply, Reply.ok.injEq] at hr
        obtain ⟨rfl, rfl⟩ := hr
        exact helse
    · simp only [whileRule, bind_eq_ok, pure_apply, Reply.ok.injEq] at hr
      obtain ⟨_, _, -, c, _, -, s₁, _, hs₁, rfl, rfl⟩ := hr
      exact ih hs₁ hopen
    · simp only [returnRule, next_bind, bind_eq_ok] at hr
      obtain ⟨_, _, -, hr⟩ := hr
      split at hr
      all_goals
        simp only [bind_eq_ok, pure_apply, Reply.ok.injEq] at hr
        obtain ⟨_, _, -, _, _, -, rfl, rfl⟩ := hr
        simp [Stmt.endsOpen] at hopen
    · simp only [bind_eq_ok, pure_apply, Reply.ok.injEq] at hr
      obtain ⟨_, _, -, rfl, rfl⟩ := hr
      simp [Stmt.endsOpen] at hopen
    · simp only [evalRule, bind_eq_ok, pure_apply, Reply.ok.injEq] at hr
      obtain ⟨_, _, -, _, _, -, rfl, rfl⟩ := hr
      simp [Stmt.endsOpen] at hopen

/-- **Soundness of statements**: a statement that is read with some levels left is nested at most
that deep. -/
lemma statementRule_sound (depth : Nat) :
    (statementRule depth).Sound Stmt.bare (Statement depth) := by
  induction depth with
  | zero => intro ts s rest hr; simp [statementRule, fault] at hr
  | succ depth ih =>
    have he := expressionRule_sound (operandRule_sound depth)
    exact fun _ _ _ hr => statementFormRule_sound he ih (statementRule_takesElse depth) hr

/-- Soundness of the bodies of functions. -/
lemma bodyRule_sound : bodyRule.Sound Block.bare (Body maxDepth) :=
  blockRule_sound (expressionRule_sound (operandRule_sound maxDepth)) (statementRule_sound maxDepth)

/-! ## Programs -/

/-- Soundness of imports. -/
lemma importRule_sound : importRule.Sound Import.bare ImportLine := by
  intro ts i rest hr
  simp only [importRule, word, mark, bind_eq_ok, token_eq_ok] at hr
  obtain ⟨t₁, _, ⟨rfl, h₁⟩, ⟨n, s⟩, _, hn, t₃, _, ⟨rfl, h₃⟩, hr⟩ := hr
  obtain ⟨t₂, rfl, h₂, rfl⟩ := name_eq_ok.1 hn
  rw [pure_apply, Reply.ok.injEq] at hr
  obtain ⟨rfl, rfl⟩ := hr
  exact ⟨[.keyword .use, .identifier n, .punct .semi], by simp [h₁, h₂, h₃], .mk⟩

/-- Soundness of parameters. -/
lemma paramsRule_sound (f : String) : (paramsRule f).Sound (List.map Param.bare) Parameters := by
  intro ts ps rest hr
  simp only [paramsRule, next_bind] at hr
  split at hr
  · simp only [pure_apply, Reply.ok.injEq] at hr
    obtain ⟨rfl, rfl⟩ := hr
    exact ⟨[], rfl, .none⟩
  · rw [bind_eq_ok] at hr
    obtain ⟨⟨type, start⟩, _, ht, hr⟩ := hr
    obtain ⟨rfl, htype⟩ := typeRule_eq_ok.1 ht
    rw [bind_eq_ok] at hr
    obtain ⟨⟨n, span⟩, mid, hn, hr⟩ := hr
    obtain ⟨t, rfl, hname, rfl⟩ := name_eq_ok.1 hn
    simp only [next_bind] at hr
    split at hr
    · simp [fault] at hr
    · simp only [pure_apply, Reply.ok.injEq] at hr
      obtain ⟨rfl, rfl⟩ := hr
      exact ⟨[start.kind, .identifier n], by simp [hname], .one htype⟩

/-- A function is read only where one may start, so it returns a type that functions may
return. -/
lemma functionRule_sound {ts : List Token} {f : Function} {rest : List Token}
    (ha : functionAhead ts = true) (hr : functionRule ts = .ok f rest) :
    ∃ ks, kinds ts = ks ++ kinds rest ∧ FunctionText maxDepth ks f.bare := by
  simp only [functionRule] at hr
  rw [bind_eq_ok] at hr
  obtain ⟨⟨type, start⟩, _, ht, hr⟩ := hr
  obtain ⟨rfl, htype⟩ := typeRule_eq_ok.1 ht
  simp only [word, mark, bind_eq_ok, token_eq_ok, pure_apply, Reply.ok.injEq] at hr
  obtain ⟨t₁, _, ⟨rfl, h₁⟩, ⟨n, s⟩, _, hn, t₃, _, ⟨rfl, h₃⟩, ps, _, hp, t₄, _, ⟨rfl, h₄⟩, b, _,
    hb, rfl, rfl⟩ := hr
  obtain ⟨t₂, rfl, h₂, rfl⟩ := name_eq_ok.1 hn
  obtain ⟨ks, hk, hP⟩ := paramsRule_sound n hp
  obtain ⟨ks', hk', hB⟩ := bodyRule_sound hb
  have hstarts : start.kind.startsFunction = true := by
    simp only [functionAhead, Bool.or_eq_true] at ha
    refine ha.resolve_right fun hid => ?_
    split at hid
    · next m hm => simp [hm, tyOfKind?] at htype
    · simp at hid
  refine ⟨start.kind :: .keyword .function :: .identifier n :: .punct .lparen ::
    (ks ++ .punct .rparen :: ks'), ?_, .mk hstarts htype hP hB⟩
  simp [h₁, h₂, h₃, hk, h₄, hk']

/-- Soundness of `main`. -/
lemma mainRule_sound : mainRule.Sound Function.bare (MainText maxDepth) := by
  intro ts f rest hr
  simp only [mainRule, word, mark, bind_eq_ok, token_eq_ok, pure_apply, Reply.ok.injEq] at hr
  obtain ⟨t₁, _, ⟨rfl, h₁⟩, t₂, _, ⟨rfl, h₂⟩, t₃, _, ⟨rfl, h₃⟩, b, _, hb, rfl, rfl⟩ := hr
  obtain ⟨ks, hk, hB⟩ := bodyRule_sound hb
  exact ⟨.keyword .main :: .punct .lparen :: .punct .rparen :: ks, by simp [h₁, h₂, h₃, hk],
    .mk hB⟩

/-- **Soundness of programs**: a program that is read from tokens without an end-of-file token is
spelt by all of them, and keeps the file it was given. -/
lemma programRule_sound {file : String} {ts : List Token} {p : Program} {rest : List Token}
    (hend : .endOfFile ∉ kinds ts) (hr : programRule file ts = .ok p rest) :
    Sentence (kinds ts ++ [.endOfFile]) p.bare ∧ p.file = file := by
  simp only [programRule] at hr
  rw [bind_eq_ok] at hr
  obtain ⟨is, mid, hi, hr⟩ := hr
  rw [bind_eq_ok] at hr
  obtain ⟨fs, mid', hf, hr⟩ := hr
  rw [next_bind] at hr
  split at hr
  · rw [bind_eq_ok] at hr
    obtain ⟨m, mid'', hm, hr⟩ := hr
    rw [next_bind] at hr
    split at hr
    · next hpeek =>
      simp only [pure_apply, Reply.ok.injEq] at hr
      obtain ⟨rfl, rfl⟩ := hr
      obtain ⟨ks₁, hk₁, h₁⟩ := many_sound (fun _ _ _ _ h => importRule_sound h) hi
      obtain ⟨ks₂, hk₂, h₂⟩ := many_sound (fun _ _ _ ha h => functionRule_sound ha h) hf
      obtain ⟨ks₃, hk₃, h₃⟩ := mainRule_sound hm
      have hnil : kinds mid'' = [] := by
        rw [hk₁, hk₂, hk₃] at hend
        rcases mid'' with _ | ⟨t, us⟩
        · rfl
        · exact absurd (by simp [show t.kind = .endOfFile from hpeek]) hend
      refine ⟨?_, rfl⟩
      rw [hk₁, hk₂, hk₃, hnil, List.append_nil, List.append_assoc, List.append_assoc]
      exact .mk h₁ h₂ h₃
    · simp [expected, fault] at hr
  · simp [expected, fault] at hr

end Idyl
