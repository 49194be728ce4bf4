import Mathlib
import Idyl.Proofs.Recursion.Termination

/-!
# Induction over the functions of the grammar

What one round of plans preserves holds of all rules.  Rules that read nothing have every property
of what is read; each round of unrolling preserves it; and after finitely many rounds only the rules
are left.

Within one round a proof follows its plan: `Idyl.Grammar.Plan.Ensures` says what a plan guarantees
where it succeeds, and there is a lemma for each kind of step.

## Main definitions

* `Idyl.Grammar.nothing` — rules that read nothing.
* `Idyl.Grammar.Plan.Ensures` — what a plan guarantees where it succeeds.

## Main results

* `Idyl.Grammar.iterate_induction` — what each round of unrolling preserves.
* `Idyl.Grammar.ruleOf_induction` — what holds of everything that is read.
-/

set_option autoImplicit false

namespace Idyl.Grammar

/-- Rules that read nothing. -/
def nothing : Readers := fun _ _ _ => Rule.fault (.tooDeep .expression)

/-- What holds of rules that read nothing and is preserved by each round of unrolling holds after
any number of rounds. -/
lemma iterate_induction {P : Readers → Prop} (hnothing : P nothing)
    (hstep : ∀ X, P X → P (unroll X)) (n : Nat) : P (unroll^[n] nothing) := by
  induction n with
  | zero => exact hnothing
  | succ n ih =>
    rw [Function.iterate_succ_apply']
    exact hstep _ ih

/-! ## What plans guarantee -/

namespace Plan

variable {α β : Type} {X : Readers} {ts : List Token} {Q : β → List Token → Prop}

/-- Where the plan succeeds, what it gives and the tokens left are as `Q` says. -/
def Ensures (X : Readers) (ts : List Token) (p : Plan α) (Q : α → List Token → Prop) : Prop :=
  ∀ ⦃a rest⦄, p.run X ts = .ok a rest → Q a rest

/-- Less may be ensured. -/
lemma Ensures.imp {p : Plan β} {R : β → List Token → Prop} (hp : Ensures X ts p R)
    (h : ∀ b rest, R b rest → Q b rest) : Ensures X ts p Q :=
  fun b rest hrun => h b rest (hp hrun)

/-- A value ensures what holds of it. -/
lemma ensures_pure {b : β} (h : Q b ts) : Ensures X ts (pure b) Q := by
  rintro _ _ ⟨⟩
  exact h

/-- A rule ensures what holds of all its successes. -/
lemma ensures_read {r : Rule β} {recedes : r.Recedes} (h : ∀ b rest, r ts = .ok b rest → Q b rest) :
    Ensures X ts (read r recedes) Q := by
  intro b rest hrun
  rw [run_read] at hrun
  exact h b rest hrun

/-- A call ensures what holds of all its successes. -/
lemma ensures_ask {x : Symbol β} {depth : Nat}
    (h : ∀ b rest, X x depth ts = .ok b rest → Q b rest) : Ensures X ts (ask x depth) Q := by
  intro b rest hrun
  rw [run_ask] at hrun
  exact h b rest hrun

/-- **Plans one after the other.** -/
lemma ensures_bind {p : Plan α} {f : α → Plan β}
    (h : Ensures X ts p fun a rest => Ensures X rest (f a) Q) : Ensures X ts (p >>= f) Q := by
  intro b rest hrun
  rw [run_bind, Rule.bind_eq_ok] at hrun
  obtain ⟨a, mid, ha, hb⟩ := hrun
  exact h ha hb

/-- Looking ahead, and then what follows. -/
lemma ensures_see {see : List Token → α} {f : α → Plan β} (h : Ensures X ts (f (see ts)) Q) :
    Ensures X ts (Plan.see see >>= f) Q := by
  refine ensures_bind (ensures_read ?_)
  rintro _ _ ⟨⟩
  exact h

/-- A choice, if both ways ensure it. -/
lemma Ensures.ite {c : Prop} [Decidable c] {p q : Plan β} (hp : Ensures X ts p Q)
    (hq : Ensures X ts q Q) : Ensures X ts (if c then p else q) Q := by
  split
  · exact hp
  · exact hq

/-- A fault ensures everything. -/
lemma ensures_fault {f : SyntaxFault} : Ensures X ts (Plan.fault f : Plan β) Q :=
  ensures_read (by rintro _ _ ⟨⟩)

/-- So does a fault at an earlier token. -/
lemma ensures_faultAt {t : Token} {f : SyntaxFault} :
    Ensures X ts (Plan.faultAt t f : Plan β) Q :=
  ensures_read (by rintro _ _ ⟨⟩)

/-- So does something that is missing. -/
lemma ensures_expected {what : String} : Ensures X ts (Plan.expected what : Plan β) Q :=
  ensures_read (by rintro _ _ ⟨⟩)

/-- Taking a mark, and then what follows. -/
lemma ensures_mark {p : Punct} {place : String} {f : Token → Plan β}
    (h : ∀ t rest, ts = t :: rest → Ensures X rest (f t) Q) :
    Ensures X ts (Plan.mark p place >>= f) Q :=
  ensures_bind (ensures_read fun t rest ht => h t rest (Rule.token_eq_ok.1 ht).1)

/-- Taking a word, and then what follows. -/
lemma ensures_word {k : Keyword} {place : String} {f : Token → Plan β}
    (h : ∀ t rest, ts = t :: rest → Ensures X rest (f t) Q) :
    Ensures X ts (Plan.word k place >>= f) Q :=
  ensures_bind (ensures_read fun t rest ht => h t rest (Rule.token_eq_ok.1 ht).1)

/-- Taking a name, and then what follows. -/
lemma ensures_name {what : String} {f : String × Span → Plan β}
    (h : ∀ n t rest, ts = t :: rest → Ensures X rest (f (n, t.span)) Q) :
    Ensures X ts (Plan.name what >>= f) Q := by
  refine ensures_bind (ensures_read ?_)
  rintro ⟨n, s⟩ rest hn
  obtain ⟨t, hts, -, rfl⟩ := Rule.name_eq_ok.1 hn
  exact h n t rest hts

end Plan

/-- **Induction over what is read.**  If what a plan gives has a property whenever what its calls
give has it, then everything that the rules read has it. -/
theorem ruleOf_induction {Q : ⦃α : Type⦄ → Symbol α → Nat → List Token → α → List Token → Prop}
    (hstep : ∀ X : Readers,
      (∀ ⦃α : Type⦄ (x : Symbol α) (depth : Nat) ⦃ts a rest⦄,
        X x depth ts = .ok a rest → Q x depth ts a rest) →
      ∀ ⦃α : Type⦄ (x : Symbol α) (depth : Nat) (ts : List Token),
        (plan x depth).Ensures X ts (Q x depth ts))
    {α : Type} {x : Symbol α} {depth : Nat} {ts rest : List Token} {a : α}
    (h : ruleOf x depth ts = .ok a rest) : Q x depth ts a rest := by
  have hiterate := iterate_induction
    (P := fun X => ∀ ⦃α : Type⦄ (x : Symbol α) (depth : Nat) ⦃ts a rest⦄,
      X x depth ts = .ok a rest → Q x depth ts a rest)
    (by rintro _ _ _ _ _ _ ⟨⟩) (fun X hX α x depth ts a rest hr => hstep X hX x depth ts hr)
    (height x ts + 1)
  refine hiterate x depth ?_
  rw [iterate_unroll nothing (Nat.lt_succ_self _)]
  exact h

end Idyl.Grammar
