import Mathlib
import Idyl.Proofs.Grammar.Rounds

/-!
# How far rules look ahead

A rule takes some tokens and looks at no more than two behind them: the token at which it stops, and
the one after it.  So on any other list of tokens that agrees so far, the rule gives the same phrase
or the same fault, and takes as many tokens.

## Main definitions

* `Idyl.Rule.StopsAt` — a rule takes a number of tokens, and looks at no more than two behind them.
* `Idyl.Rule.Shortsighted` — a rule that does so on all tokens.

## Main results

* `Idyl.Rule.Shortsighted.bind`, `Idyl.Rule.many_shortsighted`, `Idyl.Rule.iterate_shortsighted` —
  rules put together.
* `Idyl.programRule_shortsighted`, `Idyl.libraryRule_shortsighted` — whole files.
-/

set_option autoImplicit false

namespace Idyl

variable {α β : Type}

/-! ## Lists that agree at the front -/

section Agreement

variable {ts ts' rest : List Token} {t : Token} {m n : Nat}

/-- Lists that agree for a while agree for less. -/
lemma take_of_take (h : ts'.take n = ts.take n) (hm : m ≤ n) : ts'.take m = ts.take m := by
  rw [← Nat.min_eq_left hm, ← List.take_take, ← List.take_take, h]

/-- They agree behind what is dropped from both. -/
lemma take_drop_of_take (h : ts'.take (m + n) = ts.take (m + n)) :
    (ts'.drop m).take n = (ts.drop m).take n := by
  rw [List.take_drop, List.take_drop, h]

/-- Only an empty list agrees with an empty one. -/
lemma eq_nil_of_take (h : ts'.take (n + 1) = ([] : List Token).take (n + 1)) : ts' = [] := by
  cases ts' with
  | nil => rfl
  | cons t' rest' => simp at h

/-- Lists that agree have the same first token, and agree behind it. -/
lemma eq_cons_of_take (h : ts'.take (n + 1) = (t :: rest).take (n + 1)) :
    ∃ rest', ts' = t :: rest' ∧ rest'.take n = rest.take n := by
  cases ts' with
  | nil => simp at h
  | cons t' rest' =>
    simp only [List.take_succ_cons, List.cons.injEq] at h
    obtain ⟨rfl, h⟩ := h
    exact ⟨rest', rfl, h⟩

/-- They show the same first token. -/
lemma head?_of_take (h : ts'.take (n + 1) = ts.take (n + 1)) : ts'.head? = ts.head? := by
  cases ts with
  | nil => rw [eq_nil_of_take h]
  | cons t rest =>
    obtain ⟨rest', rfl, -⟩ := eq_cons_of_take h
    rfl

/-- They show the same first kind. -/
lemma peek_of_take (h : ts'.take (n + 1) = ts.take (n + 1)) : peek ts' = peek ts := by
  cases ts with
  | nil => rw [eq_nil_of_take h]
  | cons t rest =>
    obtain ⟨rest', rfl, -⟩ := eq_cons_of_take h
    rfl

end Agreement

/-- The same reply, with other tokens left. -/
def Reply.withRest (reply : Reply α) (rest : List Token) : Reply α :=
  match reply with
  | ok a _ => .ok a rest
  | fail m _ => .fail m rest

namespace Rule

/-- On some tokens a rule takes the first `n` of them and looks at no more than two behind these:
on any tokens that agree so far it gives the same reply.  A fault without a token is one at the end
of the file. -/
structure StopsAt (r : Rule α) (ts : List Token) (n : Nat) : Prop where
  le_length : n ≤ ts.length
  rest_eq : (r ts).rest = ts.drop n
  atEnd : ∀ ⦃f rest⦄, r ts = .fail ⟨f, none⟩ rest → rest = []
  alike : ∀ ⦃ts'⦄, ts'.take (n + 2) = ts.take (n + 2) → r ts' = (r ts).withRest (ts'.drop n)

/-- A rule that looks at no more than two tokens behind those it takes. -/
def Shortsighted (r : Rule α) : Prop := ∀ ts, ∃ n, r.StopsAt ts n

/-! ## Rules for one token -/

/-- Nothing is taken, and nothing looked at. -/
lemma pure_shortsighted (a : α) : (pure a : Rule α).Shortsighted := by
  refine fun ts => ⟨0, Nat.zero_le _, rfl, fun _ _ h => ?_, fun _ _ => rfl⟩
  cases h

/-- A fault names the token ahead and takes none. -/
lemma fault_shortsighted (f : SyntaxFault) : (fault f : Rule α).Shortsighted := by
  refine fun ts => ⟨0, Nat.zero_le _, rfl, fun g rest h => ?_, fun ts' h => ?_⟩
  · simp only [fault, Reply.fail.injEq, Misread.mk.injEq] at h
    obtain ⟨⟨-, hhead⟩, rfl⟩ := h
    exact List.head?_eq_none_iff.1 hhead
  · rw [fault, fault, head?_of_take h]
    rfl

/-- A fault at an earlier token looks at nothing. -/
lemma faultAt_shortsighted (t : Token) (f : SyntaxFault) : (faultAt t f : Rule α).Shortsighted := by
  refine fun ts => ⟨0, Nat.zero_le _, rfl, fun g rest h => ?_, fun _ _ => rfl⟩
  simp [faultAt] at h

/-- The kind ahead is told by the token ahead. -/
lemma next_shortsighted : next.Shortsighted := by
  refine fun ts => ⟨0, Nat.zero_le _, rfl, fun _ _ h => ?_, fun ts' h => ?_⟩
  · cases h
  · rw [next, next, peek_of_take h]
    rfl

/-- Rules that are the same wherever the next two tokens are. -/
lemma StopsAt.congr {r r' : Rule α} {ts : List Token} {n : Nat} (h : r.StopsAt ts n)
    (heq : ∀ ⦃ts'⦄, ts'.take 2 = ts.take 2 → r' ts' = r ts') : r'.StopsAt ts n := by
  refine ⟨h.le_length, ?_, fun f rest he => ?_, fun ts' hts' => ?_⟩
  · rw [heq rfl, h.rest_eq]
  · exact h.atEnd (heq rfl ▸ he)
  · rw [heq rfl, heq (take_of_take hts' (by omega)), h.alike hts']

/-- A rule that is chosen by what is seen of the next two tokens. -/
lemma Shortsighted.look (see : List Token → β) (r : β → Rule α)
    (hsee : ∀ ⦃ts ts' : List Token⦄, ts'.take 2 = ts.take 2 → see ts' = see ts)
    (h : ∀ b, (r b).Shortsighted) : Shortsighted (fun ts => r (see ts) ts) := by
  intro ts
  obtain ⟨n, hn⟩ := h (see ts) ts
  exact ⟨n, hn.congr fun ts' hts' => by rw [hsee hts']⟩

/-- What is missing is told by the token ahead. -/
lemma expected_shortsighted (what : String) : (expected what : Rule α).Shortsighted :=
  Shortsighted.look peek (fun k => fault (.expected what k)) (fun _ _ h => peek_of_take h)
    fun _ => fault_shortsighted _

/-- A rule that takes the first token and goes on by another rule. -/
lemma StopsAt.cons {r u : Rule α} {t : Token} {rest : List Token} {n : Nat} (h : u.StopsAt rest n)
    (heq : ∀ rest, r (t :: rest) = u rest) : r.StopsAt (t :: rest) (n + 1) := by
  refine ⟨by simpa using h.le_length, ?_, fun f rest' he => ?_, fun ts' hts' => ?_⟩
  · rw [heq, h.rest_eq, List.drop_succ_cons]
  · exact h.atEnd (heq rest ▸ he)
  · obtain ⟨rest', rfl, hrest'⟩ := eq_cons_of_take hts'
    rw [heq, heq, h.alike hrest', List.drop_succ_cons]

/-- A rule that looks at the first token: either it goes on by another rule from this token, or it
takes the token and goes on by another rule behind it. -/
lemma shortsighted_of_first {r : Rule α} (hnil : ∃ u : Rule α, u.Shortsighted ∧ r [] = u [])
    (hcons : ∀ t, (∃ u : Rule α, u.Shortsighted ∧ ∀ rest, r (t :: rest) = u (t :: rest)) ∨
      ∃ u : Rule α, u.Shortsighted ∧ ∀ rest, r (t :: rest) = u rest) : r.Shortsighted := by
  intro ts
  cases ts with
  | nil =>
    obtain ⟨u, hu, heq⟩ := hnil
    obtain ⟨n, hn⟩ := hu []
    exact ⟨n, hn.congr fun ts' h => by rw [eq_nil_of_take h, heq]⟩
  | cons t rest =>
    rcases hcons t with ⟨u, hu, heq⟩ | ⟨u, hu, heq⟩
    · obtain ⟨n, hn⟩ := hu (t :: rest)
      refine ⟨n, hn.congr fun ts' h => ?_⟩
      obtain ⟨rest', rfl, -⟩ := eq_cons_of_take h
      exact heq rest'
    · obtain ⟨n, hn⟩ := hu rest
      exact ⟨n + 1, hn.cons heq⟩

/-- One token is taken or found wanting. -/
lemma token_shortsighted (kind : TokenKind) (place : String) :
    (token kind place).Shortsighted := by
  refine shortsighted_of_first ⟨_, expected_shortsighted (wanted kind place), rfl⟩ fun t => ?_
  by_cases hk : t.kind = kind
  · exact .inr ⟨_, pure_shortsighted t, fun rest => by rw [token, if_pos hk]; rfl⟩
  · exact .inl ⟨_, expected_shortsighted (wanted kind place), fun rest => by rw [token, if_neg hk]⟩

/-- A mark is one token. -/
lemma mark_shortsighted (p : Punct) (place : String) : (mark p place).Shortsighted :=
  token_shortsighted _ _

/-- A word is one token. -/
lemma word_shortsighted (k : Keyword) (place : String) : (word k place).Shortsighted :=
  token_shortsighted _ _

/-- A name is one token. -/
lemma name_shortsighted (what : String) : (name what).Shortsighted := by
  refine shortsighted_of_first ⟨_, expected_shortsighted what, rfl⟩ fun t => ?_
  cases hk : t.kind with
  | identifier n =>
    exact .inr ⟨_, pure_shortsighted (n, t.span), fun rest => by rw [name, hk]; rfl⟩
  | _ => exact .inl ⟨_, expected_shortsighted what, fun rest => by rw [name, hk]⟩

/-! ## Rules put together -/

/-- **Rules in a row**, on some tokens: the tokens that they take are added up, and what the first
looks at behind those that it takes, the second may take. -/
lemma StopsAt.bind {r : Rule α} {f : α → Rule β} {ts : List Token} {n : Nat}
    (h : r.StopsAt ts n)
    (hf : ∀ a rest, r ts = .ok a rest → ∃ m, (f a).StopsAt rest m) :
    ∃ m, (r >>= f).StopsAt ts m := by
  have hrest := h.rest_eq
  cases hr : r ts with
  | fail e rest =>
    rw [hr] at hrest
    refine ⟨n, h.le_length, ?_, fun f rest' he => ?_, fun ts' hts' => ?_⟩
    · rw [bind_of_fail hr]
      exact hrest
    · rw [bind_of_fail hr, Reply.fail.injEq] at he
      obtain ⟨rfl, rfl⟩ := he
      exact h.atEnd hr
    · have hr' := h.alike hts'
      rw [hr] at hr'
      rw [bind_of_fail hr, bind_of_fail hr']
      rfl
  | ok a rest =>
    rw [hr] at hrest
    obtain ⟨m, hm⟩ := hf a rest hr
    obtain rfl : rest = ts.drop n := hrest
    have hle := h.le_length
    have hle' := hm.le_length
    rw [List.length_drop] at hle'
    refine ⟨n + m, by omega, ?_, fun f rest' he => ?_, fun ts' hts' => ?_⟩
    · rw [bind_of_ok hr, hm.rest_eq, List.drop_drop]
    · rw [bind_of_ok hr] at he
      exact hm.atEnd he
    · have hr' := h.alike (take_of_take hts' (by omega))
      rw [hr] at hr'
      rw [bind_of_ok hr, bind_of_ok hr', hm.alike (take_drop_of_take (by rwa [← Nat.add_assoc])),
        List.drop_drop]

/-- **Rules in a row.** The second one looks on from where the first one stopped. -/
lemma Shortsighted.bind {r : Rule α} {f : α → Rule β} (h : r.Shortsighted)
    (hf : ∀ a, (f a).Shortsighted) : (r >>= f).Shortsighted := by
  intro ts
  obtain ⟨n, hn⟩ := h ts
  exact hn.bind fun a rest _ => hf a rest

/-- A choice that is made without looking. -/
lemma Shortsighted.ite {p : Prop} [Decidable p] {r u : Rule α} (hr : r.Shortsighted)
    (hu : u.Shortsighted) : (if p then r else u).Shortsighted := by
  split
  · exact hr
  · exact hu

/-- **Phrases one after the other.**

**Proof sketch.** Induction on the number of tokens, by unrolling one phrase, which takes a
token. -/
lemma many_shortsighted {starts : List Token → Bool} {item : Rule α} (h : Paced starts item)
    (hstarts : ∀ ⦃ts ts' : List Token⦄, ts'.take 2 = ts.take 2 → starts ts' = starts ts)
    (hitem : item.Shortsighted) : (many starts item).Shortsighted := by
  intro ts
  induction hlen : ts.length using Nat.strongRecOn generalizing ts with
  | _ len ih =>
    cases hstart : starts ts with
    | true =>
      obtain ⟨m, hm⟩ := hitem ts
      obtain ⟨n, hn⟩ := hm.bind
        (f := fun a => do let as ← many starts item; pure (a :: as)) fun a rest hr => by
          obtain ⟨k, hk⟩ := ih rest.length (hlen ▸ h.shrinking hstart hr) rest rfl
          exact hk.bind fun as rest' _ => pure_shortsighted (a :: as) rest'
      exact ⟨n, hn.congr fun ts' hts' => many_of_true h (hstarts hts' ▸ hstart)⟩
    | false =>
      obtain ⟨n, hn⟩ := pure_shortsighted ([] : List α) ts
      exact ⟨n, hn.congr fun ts' hts' => many_of_false (hstarts hts' ▸ hstart)⟩

/-- **Going on from a phrase to a larger one.** -/
lemma iterate_shortsighted {step : α → TokenKind → Option (Rule α)} (h : Advancing step)
    (hstep : ∀ ⦃a k r⦄, step a k = some r → r.Shortsighted) (a : α) :
    (iterate step a).Shortsighted := by
  intro ts
  induction hlen : ts.length using Nat.strongRecOn generalizing ts a with
  | _ len ih =>
    cases hs : step a (peek ts) with
    | none =>
      obtain ⟨n, hn⟩ := pure_shortsighted a ts
      exact ⟨n, hn.congr fun ts' hts' => iterate_of_none (peek_of_take hts' ▸ hs)⟩
    | some r =>
      obtain ⟨m, hm⟩ := hstep hs ts
      obtain ⟨n, hn⟩ := hm.bind (f := iterate step) fun b rest hr =>
        ih rest.length (hlen ▸ h.shrinking hs hr) b rest rfl
      exact ⟨n, hn.congr fun ts' hts' => iterate_of_some h (peek_of_take hts' ▸ hs)⟩

end Rule

open Rule

variable {operand expression group : Rule Expr} {statement : Rule Stmt}

/-! ## Expressions -/

/-- One round of operators. -/
lemma joinStep_shortsighted (h : operand.Shortsighted) {level : Nat} {l : Expr} {k : TokenKind}
    {r : Rule Expr} (hr : joinStep level operand l k = some r) : r.Shortsighted := by
  obtain ⟨op, -, -, rfl⟩ := joinStep_eq_some.1 hr
  exact (token_shortsighted _ _).bind fun _ => h.bind fun _ => pure_shortsighted _

/-- Operators of all levels. -/
lemma binaryRule_shortsighted {depth : Nat} (h : (operandRule depth).Shortsighted) (level : Nat) :
    (binaryRule (operandRule depth) level).Shortsighted := by
  induction level with
  | zero => exact h
  | succ level ih =>
    exact ih.bind fun l => iterate_shortsighted
      (joinStep_advancing (binaryRule_shrinking depth level) _)
      (fun _ _ _ hr => joinStep_shortsighted ih hr) l

/-- On some tokens, what follows the left side of an assignment, given that values behind the `=`
sign are read so. -/
lemma assignmentTail_stopsAt {value : Rule Expr} (target : Expr) {ts : List Token}
    (h : ∀ t rest, ts = t :: rest → ∃ n, value.StopsAt rest n) :
    ∃ n, (assignmentTail value target).StopsAt ts n := by
  obtain ⟨n, hn⟩ := next_shortsighted ts
  refine hn.bind fun k rest hr => ?_
  obtain ⟨rfl, rfl⟩ := Reply.ok.inj hr
  split
  · obtain ⟨m, hm⟩ := mark_shortsighted .assign "" ts
    refine hm.bind fun sign rest hsign => ?_
    obtain ⟨rfl, -⟩ := token_eq_ok.1 hsign
    cases target with
    | var name span =>
      obtain ⟨i, hi⟩ := h sign rest rfl
      exact hi.bind fun v rest' _ => pure_shortsighted _ rest'
    | _ => exact faultAt_shortsighted _ _ rest
  · exact pure_shortsighted target ts

/-- **Assignments.**

**Proof sketch.** Induction on the number of tokens, by unrolling one assignment; what is left for
the value behind the `=` sign is shorter. -/
lemma assignmentRule_shortsighted (hs : operand.Shrinking) (h : operand.Shortsighted) :
    (assignmentRule operand).Shortsighted := by
  intro ts
  induction hlen : ts.length using Nat.strongRecOn generalizing ts with
  | _ len ih =>
    rw [assignmentRule_eq hs]
    obtain ⟨n, hn⟩ := h ts
    refine hn.bind fun target mid hr => assignmentTail_stopsAt target fun t rest hmid => ?_
    have hlt := hs hr
    rw [hmid, List.length_cons, hlen] at hlt
    exact ih rest.length (by omega) rest rfl

/-- Expressions over operands. -/
lemma expressionRule_shortsighted {depth : Nat} (h : (operandRule depth).Shortsighted) :
    (expressionRule (operandRule depth)).Shortsighted :=
  assignmentRule_shortsighted (binaryRule_shrinking depth _) (binaryRule_shortsighted h _)

/-- Literals, names and groups. -/
lemma primaryRule_shortsighted (h : group.Shortsighted) : (primaryRule group).Shortsighted := by
  have hexpected := expected_shortsighted (α := Expr) "expression"
  refine shortsighted_of_first ⟨_, hexpected, rfl⟩ fun t => ?_
  cases hk : t.kind with
  | integer text =>
    cases hn : readInt? text with
    | none =>
      exact .inl ⟨_, fault_shortsighted (.integerTooLarge text), fun rest => by
        simp only [primaryRule, hk, hn]⟩
    | some n =>
      exact .inr ⟨_, pure_shortsighted _, fun rest => by simp only [primaryRule, hk, hn]; rfl⟩
  | float text =>
    cases hx : Binary64.ofText? text with
    | none =>
      exact .inl ⟨_, fault_shortsighted (.invalidFloat text), fun rest => by
        simp only [primaryRule, hk, hx]⟩
    | some x =>
      exact .inr ⟨_, pure_shortsighted _, fun rest => by simp only [primaryRule, hk, hx]; rfl⟩
  | string value | char value | identifier n =>
    exact .inr ⟨_, pure_shortsighted _, fun rest => by rw [primaryRule, hk]; rfl⟩
  | keyword w =>
    cases w with
    | true | false =>
      exact .inr ⟨_, pure_shortsighted _, fun rest => by rw [primaryRule, hk]; rfl⟩
    | _ => exact .inl ⟨_, hexpected, fun rest => by rw [primaryRule, hk]⟩
  | punct m =>
    cases m with
    | lparen => exact .inr ⟨_, h, fun rest => by rw [primaryRule, hk]⟩
    | _ => exact .inl ⟨_, hexpected, fun rest => by rw [primaryRule, hk]⟩
  | endOfFile => exact .inl ⟨_, hexpected, fun rest => by rw [primaryRule, hk]⟩

/-- The arguments of a call. -/
lemma argumentsRule_shortsighted {depth : Nat}
    (h : (expressionRule (operandRule depth)).Shortsighted) :
    (argumentsRule (expressionRule (operandRule depth))).Shortsighted := by
  refine next_shortsighted.bind fun k => .ite (pure_shortsighted _) (h.bind fun e => ?_)
  refine (many_shortsighted (arguments_paced depth) (fun ts ts' hts => ?_) ?_).bind
    fun es => pure_shortsighted _
  · rw [peek_of_take hts]
  · exact (mark_shortsighted _ _).bind fun _ => h

/-- One round of calls and members. -/
lemma postfixStep_shortsighted {depth : Nat} (h : (expressionRule (operandRule depth)).Shortsighted)
    {e : Expr} {k : TokenKind} {r : Rule Expr}
    (hr : postfixStep (expressionRule (operandRule depth)) e k = some r) : r.Shortsighted := by
  rcases postfixStep_eq_some.1 hr with ⟨-, rfl⟩ | ⟨-, rfl⟩
  · exact (mark_shortsighted _ _).bind fun _ => (argumentsRule_shortsighted h).bind fun _ =>
      (mark_shortsighted _ _).bind fun _ => pure_shortsighted _
  · exact (mark_shortsighted _ _).bind fun _ => (name_shortsighted _).bind fun _ =>
      pure_shortsighted _

/-- An expression in parentheses. -/
lemma groupRule_shortsighted (h : expression.Shortsighted) : (groupRule expression).Shortsighted :=
  h.bind fun _ => (mark_shortsighted _ _).bind fun _ => pure_shortsighted _

/-- Operators in front of an operand. -/
lemma prefixRule_shortsighted {depth : Nat} (h : (operandRule depth).Shortsighted)
    (hg : group.Shortsighted) :
    (prefixRule (operandRule depth) (expressionRule (operandRule depth)) group).Shortsighted := by
  have he := expressionRule_shortsighted h
  refine next_shortsighted.bind fun k => ?_
  split
  · exact (word_shortsighted _ _).bind fun _ => h.bind fun _ => pure_shortsighted _
  · exact (mark_shortsighted _ _).bind fun _ => h.bind fun _ => pure_shortsighted _
  · exact (primaryRule_shortsighted hg).bind fun e => iterate_shortsighted
      (postfixStep_advancing (expressionRule_sound (operandRule_sound depth)))
      (fun _ _ _ hr => postfixStep_shortsighted he hr) e

/-- **Operands.**

**Proof sketch.** Strong induction on the number of levels: parentheses take two of them. -/
lemma operandRule_shortsighted (depth : Nat) : (operandRule depth).Shortsighted := by
  induction depth using Nat.strongRecOn with
  | _ depth ih =>
    cases depth with
    | zero => exact fault_shortsighted _
    | succ depth =>
      rw [operandRule_succ]
      refine prefixRule_shortsighted (ih depth (Nat.lt_succ_self depth)) ?_
      cases depth with
      | zero => exact fault_shortsighted _
      | succ inner =>
        exact groupRule_shortsighted (expressionRule_shortsighted (ih inner (by omega)))

/-! ## Statements -/

/-- The name of a type. -/
lemma typeRule_shortsighted : typeRule.Shortsighted := by
  refine shortsighted_of_first ⟨_, expected_shortsighted "type name", rfl⟩ fun t => ?_
  cases hk : tyOfKind? t.kind with
  | some type =>
    exact .inr ⟨_, pure_shortsighted (type, t), fun rest => by simp only [typeRule, hk]; rfl⟩
  | none =>
    cases hn : t.kind with
    | identifier n =>
      exact .inl ⟨_, fault_shortsighted (.unknownType n), fun rest => by
        simp only [typeRule, hk]
        rw [hn]⟩
    | _ =>
      exact .inl ⟨_, expected_shortsighted "type name", fun rest => by
        simp only [typeRule, hk]
        rw [hn]⟩

/-- Declarations of variables. -/
lemma declarationRule_shortsighted (h : expression.Shortsighted) :
    (declarationRule expression).Shortsighted := by
  refine typeRule_shortsighted.bind fun x => (name_shortsighted _).bind fun y => ?_
  cases x.1.default? with
  | none => exact faultAt_shortsighted _ _
  | some value =>
    refine next_shortsighted.bind fun k => ?_
    have hend : ∀ init : Expr, (do
        let semi ← mark .semi "after variable declaration"
        pure (.declare x.1 y.1 init (x.2.span.merge semi.span)) : Rule Stmt).Shortsighted :=
      fun init => (mark_shortsighted _ _).bind fun _ => pure_shortsighted _
    split
    · exact (mark_shortsighted _ _).bind fun _ => h.bind hend
    · exact (pure_shortsighted _).bind hend

/-- A misspelled type is told by two tokens. -/
lemma misspelledType?_of_take {ts ts' : List Token} (h : ts'.take 2 = ts.take 2) :
    misspelledType? ts' = misspelledType? ts := by
  rcases ts with _ | ⟨t, _ | ⟨u, us⟩⟩
  · rw [eq_nil_of_take h]
  · obtain ⟨rest', rfl, hrest⟩ := eq_cons_of_take h
    rw [eq_nil_of_take hrest]
  · obtain ⟨rest', rfl, hrest⟩ := eq_cons_of_take h
    obtain ⟨us', rfl, -⟩ := eq_cons_of_take hrest
    rfl

/-- What stands in a block. -/
lemma itemRule_shortsighted (he : expression.Shortsighted) (hs : statement.Shortsighted) :
    (itemRule expression statement).Shortsighted := by
  have hrule : itemRule expression statement = fun ts =>
      if (peek ts).isTypeName then declarationRule expression ts
      else (misspelledType? ts).elim (statement ts) fun n => fault (.unknownType n) ts := by
    funext ts
    rw [itemRule]
    cases misspelledType? ts <;> rfl
  rw [hrule]
  refine Shortsighted.look (fun ts => ((peek ts).isTypeName, misspelledType? ts))
    (fun seen ts => if seen.1 then declarationRule expression ts else
      seen.2.elim (statement ts) fun n => fault (.unknownType n) ts) (fun ts ts' h => ?_)
    fun seen => ?_
  · rw [peek_of_take h, misspelledType?_of_take h]
  · obtain ⟨isType, misspelled⟩ := seen
    cases isType with
    | true => exact declarationRule_shortsighted he
    | false =>
      cases misspelled with
      | some n => exact fault_shortsighted _
      | none => exact hs

/-- Blocks. -/
lemma blockRule_shortsighted {depth : Nat} (h : (statementRule depth).Shortsighted) :
    (blockRule (expressionRule (operandRule depth)) (statementRule depth)).Shortsighted := by
  have he := expressionRule_shortsighted (operandRule_shortsighted depth)
  refine (mark_shortsighted _ _).bind fun _ => ?_
  refine (many_shortsighted (items_paced depth) (fun ts ts' hts => ?_)
    (itemRule_shortsighted he h)).bind fun _ => ?_
  · rw [inBlock, inBlock, peek_of_take hts]
  · exact (mark_shortsighted _ _).bind fun _ => pure_shortsighted _

/-- Conditions in parentheses. -/
lemma conditionRule_shortsighted (h : expression.Shortsighted) (place : String) :
    (conditionRule expression place).Shortsighted :=
  (mark_shortsighted _ _).bind fun _ => h.bind fun _ => (mark_shortsighted _ _).bind fun _ =>
    pure_shortsighted _

/-- An `else` is looked for behind the branch. -/
lemma ifRule_shortsighted (he : expression.Shortsighted) (hs : statement.Shortsighted) :
    (ifRule expression statement).Shortsighted := by
  refine (word_shortsighted _ _).bind fun _ => (conditionRule_shortsighted he _).bind fun _ => ?_
  refine hs.bind fun _ => next_shortsighted.bind fun _ => .ite ?_ (pure_shortsighted _)
  exact (word_shortsighted _ _).bind fun _ => hs.bind fun _ => pure_shortsighted _

/-- Loops. -/
lemma whileRule_shortsighted (he : expression.Shortsighted) (hs : statement.Shortsighted) :
    (whileRule expression statement).Shortsighted :=
  (word_shortsighted _ _).bind fun _ => (conditionRule_shortsighted he _).bind fun _ =>
    hs.bind fun _ => pure_shortsighted _

/-- A `return` with or without a value. -/
lemma returnRule_shortsighted (h : expression.Shortsighted) :
    (returnRule expression).Shortsighted := by
  refine (word_shortsighted _ _).bind fun start => next_shortsighted.bind fun k => ?_
  have hend : ∀ value : Option Expr, (do
      let semi ← mark .semi "after return"
      pure (.return_ value (start.span.merge semi.span)) : Rule Stmt).Shortsighted :=
    fun value => (mark_shortsighted _ _).bind fun _ => pure_shortsighted _
  split
  · exact (pure_shortsighted _).bind hend
  · rw [map_eq_bind]
    exact (h.bind fun _ => pure_shortsighted _).bind hend

/-- Expressions with a semicolon. -/
lemma evalRule_shortsighted (h : expression.Shortsighted) : (evalRule expression).Shortsighted :=
  h.bind fun _ => (mark_shortsighted _ _).bind fun _ => pure_shortsighted _

/-- Statements, by induction over the levels left. -/
lemma statementRule_shortsighted (depth : Nat) : (statementRule depth).Shortsighted := by
  induction depth with
  | zero => exact fault_shortsighted _
  | succ depth ih =>
    have he := expressionRule_shortsighted (operandRule_shortsighted depth)
    show (statementFormRule (expressionRule (operandRule depth)) (statementRule depth)).Shortsighted
    refine next_shortsighted.bind fun k => ?_
    split
    · exact ifRule_shortsighted he ih
    · exact whileRule_shortsighted he ih
    · exact returnRule_shortsighted he
    · exact (blockRule_shortsighted ih).bind fun _ => pure_shortsighted _
    · exact evalRule_shortsighted he

/-- The bodies of functions. -/
lemma bodyRule_shortsighted : bodyRule.Shortsighted :=
  blockRule_shortsighted (statementRule_shortsighted maxDepth)

/-! ## Programs and libraries -/

/-- Imports. -/
lemma importRule_shortsighted : importRule.Shortsighted :=
  (word_shortsighted _ _).bind fun _ => (name_shortsighted _).bind fun _ =>
    (mark_shortsighted _ _).bind fun _ => pure_shortsighted _

/-- The parameters of a function. -/
lemma paramsRule_shortsighted (function : String) : (paramsRule function).Shortsighted := by
  refine next_shortsighted.bind fun _ => .ite (pure_shortsighted _) ?_
  refine typeRule_shortsighted.bind fun _ => (name_shortsighted _).bind fun _ => ?_
  exact next_shortsighted.bind fun _ => .ite (fault_shortsighted _) (pure_shortsighted _)

/-- Functions. -/
lemma functionRule_shortsighted : functionRule.Shortsighted := by
  refine typeRule_shortsighted.bind fun _ => (word_shortsighted _ _).bind fun _ => ?_
  refine (name_shortsighted _).bind fun x => (mark_shortsighted _ _).bind fun _ => ?_
  refine (paramsRule_shortsighted x.1).bind fun _ => (mark_shortsighted _ _).bind fun _ => ?_
  exact bodyRule_shortsighted.bind fun _ => pure_shortsighted _

/-- The function `main`. -/
lemma mainRule_shortsighted : mainRule.Shortsighted :=
  (word_shortsighted _ _).bind fun _ => (mark_shortsighted _ _).bind fun _ =>
    (mark_shortsighted _ _).bind fun _ => bodyRule_shortsighted.bind fun _ => pure_shortsighted _

/-- An import is seen by two tokens. -/
lemma importAhead_of_take {ts ts' : List Token} (h : ts'.take 2 = ts.take 2) :
    importAhead ts' = importAhead ts := by
  rw [importAhead, importAhead, peek_of_take h]

/-- Whether a function is ahead shows in two tokens. -/
lemma functionAhead_of_take {ts ts' : List Token} (h : ts'.take 2 = ts.take 2) :
    functionAhead ts' = functionAhead ts := by
  cases ts with
  | nil => rw [eq_nil_of_take h]
  | cons t rest =>
    obtain ⟨rest', rfl, hrest⟩ := eq_cons_of_take h
    rw [functionAhead, functionAhead, peek_of_take hrest]

/-- **Programs.** -/
lemma programRule_shortsighted (file : String) : (programRule file).Shortsighted := by
  refine (many_shortsighted imports_paced (fun _ _ => importAhead_of_take)
    importRule_shortsighted).bind fun _ => ?_
  refine (many_shortsighted functions_paced (fun _ _ => functionAhead_of_take)
    functionRule_shortsighted).bind fun _ => ?_
  refine next_shortsighted.bind fun _ => .ite ?_ (expected_shortsighted _)
  exact mainRule_shortsighted.bind fun _ => next_shortsighted.bind fun _ =>
    .ite (pure_shortsighted _) (expected_shortsighted _)

/-- What stands in a library. -/
lemma libraryItemRule_shortsighted : libraryItemRule.Shortsighted := by
  refine Shortsighted.look (fun ts => (importAhead ts, functionAhead ts, peek ts))
    (fun seen ts => if seen.1 then (do let _ ← importRule; pure none : Rule _) ts
      else if seen.2.1 then (some <$> functionRule) ts
      else fault (.notInLibrary seen.2.2) ts) (fun ts ts' h => ?_) fun seen => ?_
  · rw [importAhead_of_take h, functionAhead_of_take h, peek_of_take h]
  · obtain ⟨isImport, isFunction, k⟩ := seen
    cases isImport with
    | true => exact importRule_shortsighted.bind fun _ => pure_shortsighted _
    | false =>
      cases isFunction with
      | true => exact functionRule_shortsighted.bind fun _ => pure_shortsighted _
      | false => exact fault_shortsighted _

/-- **Libraries.** -/
lemma libraryRule_shortsighted : libraryRule.Shortsighted := by
  refine (many_shortsighted libraryItems_paced (fun ts ts' h => ?_)
    libraryItemRule_shortsighted).bind fun _ => pure_shortsighted _
  rw [peek_of_take h]

end Idyl
