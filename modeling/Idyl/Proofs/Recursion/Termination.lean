import Mathlib
import Idyl.Proofs.Recursion.Solution
import Idyl.Proofs.Session.Calls

/-!
# Reading ends

A function that calls others could go on without end.  Here it does not: every call, and so every
round of a loop, either starts further on among the tokens, or at the same place and on a lower
level of the grammar.  So calls stand in each other only so deep as tokens and levels allow, and
what would be given further down does not matter.

## Main definitions

* `Idyl.Grammar.Call.Below` — calls that start further on or on a lower level.
* `Idyl.Grammar.height` — a bound on how deep calls stand in each other.
* `Idyl.Session.posAt` — the position behind the tokens that were taken.

## Main results

* `Idyl.Grammar.calls_below` — every call is of this kind.
* `Idyl.Grammar.iterate_unroll` — after finitely many rounds of unrolling only the rules are left.
* `Idyl.Grammar.reading_terminates` — phrases move the position, calls descend, and so reading
  programs and libraries ends on all tokens.
-/

set_option autoImplicit false

namespace Idyl

namespace Grammar

open Rule Plan

variable {α β : Type}

/-! ## Calls descend -/

/-- A call that starts further on among the tokens, or at the same place and on a lower level. -/
def Call.Below (c : Call) (x : Symbol α) (ts : List Token) : Prop :=
  (c.ahead <:+ ts ∧ c.ahead.length < ts.length) ∨ (c.ahead = ts ∧ c.symbol.rank < x.rank)

/-- All calls of a plan that is carried out from the tokens `ts` start somewhere among these. -/
lemma suffix_of_mem_calls (p : Plan α) {ts : List Token} {c : Call} (hc : c ∈ p.calls ruleOf ts) :
    c.ahead <:+ ts := by
  induction p generalizing ts with
  | done a => cases hc
  | step r recedes goOn ih =>
    obtain ⟨b, rest, hr, hc⟩ := (calls_step ..).1 hc
    exact (ih b hc).trans (recedes hr)
  | call x depth goOn ih =>
    rcases (calls_call ..).1 hc with rfl | ⟨b, rest, hr, hc⟩
    · exact List.suffix_rfl
    · exact (ih b hc).trans (ruleOf_recedes depth x hr)

section Descends

variable {x : Symbol α} {ts : List Token}

/-- Carried out from the tokens `ts`, a plan makes only calls below `x`. -/
def Descends (x : Symbol α) (ts : List Token) (p : Plan β) : Prop :=
  ∀ c ∈ p.calls ruleOf ts, c.Below x ts

/-- A value makes no call. -/
lemma descends_pure (b : β) : Descends x ts (pure b : Plan β) := by
  rintro c ⟨⟩

/-- A rule by itself makes no call. -/
lemma descends_read (r : Rule β) (recedes : r.Recedes) : Descends x ts (read r recedes) := by
  intro c hc
  obtain ⟨b, rest, -, hc⟩ := (calls_step ..).1 hc
  cases hc

/-- A call on a lower level. -/
lemma descends_ask {y : Symbol β} (h : y.rank < x.rank) (depth : Nat) :
    Descends x ts (ask y depth) := by
  intro c hc
  rcases (calls_call ..).1 hc with rfl | ⟨b, rest, -, hc⟩
  · exact .inr ⟨rfl, h⟩
  · cases hc

/-- **Plans in a row.**  Behind a token all calls start further on, so the second plan matters only
as far as the first one takes nothing. -/
lemma Descends.bind {γ : Type} {p : Plan β} {f : β → Plan γ} (hp : Descends x ts p)
    (hf : ∀ b, p.run ruleOf ts = .ok b ts → Descends x ts (f b)) : Descends x ts (p >>= f) := by
  intro c hc
  rcases (mem_calls_bind p f).1 hc with hfirst | ⟨b, rest, hb, hsecond⟩
  · exact hp c hfirst
  · have hrest : rest <:+ ts := run_recedes (fun x depth => ruleOf_recedes depth x) p hb
    rcases Nat.lt_or_ge rest.length ts.length with hlt | hge
    · have hsuffix := suffix_of_mem_calls (f b) hsecond
      exact .inl ⟨hsuffix.trans hrest, Nat.lt_of_le_of_lt hsuffix.length_le hlt⟩
    · obtain rfl : rest = ts := hrest.eq_of_length_le hge
      exact hf b hb c hsecond

/-- Behind a plan that takes a token all calls start further on. -/
lemma Descends.andThen {γ : Type} {p : Plan β} (hp : Descends x ts p)
    (htakes : (p.run ruleOf).Shrinking) (f : β → Plan γ) : Descends x ts (p >>= f) :=
  hp.bind fun _ hb => absurd (htakes hb) (Nat.lt_irrefl _)

/-- Behind a mark all calls start further on. -/
lemma descends_mark (p : Punct) (place : String) (f : Token → Plan β) :
    Descends x ts (Plan.mark p place >>= f) :=
  (descends_read _ _).andThen (mark_shrinking p place) f

/-- Behind a word all calls start further on. -/
lemma descends_word (k : Keyword) (place : String) (f : Token → Plan β) :
    Descends x ts (Plan.word k place >>= f) := by
  refine (descends_read _ _).andThen ?_ f
  rw [run_read]
  exact token_shrinking _ _

/-- A call for a phrase on a lower level, and whatever behind it. -/
lemma descends_phrase {γ : Type} {y : Symbol β} (h : y.rank < x.rank) (hy : y.isLoop = false)
    (depth : Nat) (f : β → Plan γ) : Descends x ts (ask y depth >>= f) := by
  refine (descends_ask h depth).andThen ?_ f
  rw [run_ask]
  exact ruleOf_shrinking depth hy

/-- Looking makes no call. -/
lemma descends_see {γ : Type} (see : List Token → β) {f : β → Plan γ}
    (h : ∀ b, Descends x ts (f b)) : Descends x ts (Plan.see see >>= f) :=
  (descends_read _ _).bind fun b _ => h b

/-- A choice makes the calls of one of its ways. -/
lemma Descends.ite {c : Prop} [Decidable c] {p q : Plan β} (hp : Descends x ts p)
    (hq : Descends x ts q) : Descends x ts (if c then p else q) := by
  split
  · exact hp
  · exact hq

/-- A list of phrases, each of which starts on a lower level. -/
lemma descends_list {y : Symbol β} (h : y.rank < x.rank) (hy : y.isLoop = false)
    (starts : List Token → Bool) (depth : Nat) (others : Plan (List β)) :
    Descends x ts (listPlan starts (ask y depth) others) :=
  descends_see _ fun _ => .ite (descends_phrase h hy depth _) (descends_pure _)

end Descends

/-- **Every call descends.**  By cases on the function: what stands in its plan in front of the
first token that is taken are calls on lower levels. -/
lemma calls_below (x : Symbol α) (depth : Nat) (ts : List Token) :
    ∀ c ∈ (plan x depth).calls ruleOf ts, c.Below x ts := by
  show Descends x ts (plan x depth)
  cases x with
  | primary => exact descends_see _ fun _ => .ite (descends_mark _ _ _) (descends_read _ _)
  | suffixes e =>
    refine descends_see _ fun _ => .ite (descends_mark _ _ _) ?_
    exact descends_see _ fun _ => .ite (descends_mark _ _ _) (descends_pure _)
  | suffixed => exact descends_phrase (by decide) rfl depth _
  | prefixed =>
    refine descends_see _ fun _ => .ite (descends_word _ _ _) ?_
    exact descends_see _ fun _ => .ite (descends_mark _ _ _) (descends_ask (by decide) depth)
  | operand =>
    cases depth with
    | zero => exact descends_read _ _
    | succ depth => exact descends_ask (by decide) depth
  | joins level left =>
    refine descends_see _ fun k => ?_
    cases binaryOp? k with
    | none => exact descends_pure _
    | some op =>
      refine .ite ((descends_read _ _).andThen ?_ _) (descends_pure _)
      rw [run_read]
      exact token_shrinking _ _
  | binary level =>
    induction level using Fin.cases with
    | zero => exact descends_ask (by simp [Symbol.rank]) depth
    | succ below => exact descends_phrase (by simp [Symbol.rank]) rfl depth _
  | expression => exact descends_phrase (by decide) rfl depth _
  | arguments =>
    exact descends_see _ fun _ => .ite (descends_pure _) (descends_phrase (by decide) rfl depth _)
  | moreArguments => exact descends_see _ fun _ => .ite (descends_mark _ _ _) (descends_pure _)
  | block => exact descends_mark _ _ _
  | items =>
    exact descends_see _ fun _ =>
      .ite (descends_phrase (by decide) rfl depth _) (descends_mark _ _ _)
  | declaration => exact descends_phrase (by decide) rfl depth _
  | form =>
    refine descends_see _ fun _ => .ite (descends_word _ _ _) ?_
    refine descends_see _ fun _ => .ite (descends_word _ _ _) ?_
    refine descends_see _ fun _ => .ite (descends_word _ _ _) ?_
    exact descends_see _ fun _ => .ite (descends_phrase (by decide) rfl depth _)
      (descends_phrase (by decide) rfl depth _)
  | statement =>
    cases depth with
    | zero => exact descends_read _ _
    | succ depth => exact descends_ask (by decide) depth
  | item =>
    refine descends_see _ fun _ => .ite (descends_ask (by decide) depth) ?_
    refine descends_see _ fun n => ?_
    cases n with
    | some n => exact descends_read _ _
    | none => exact descends_ask (by decide) depth
  | type | import_ => exact descends_read _ _
  | function => exact descends_phrase (by decide) rfl depth _
  | main => exact descends_word _ _ _
  | imports | functions | libraryItems => exact descends_list (by decide) rfl _ depth _
  | program file =>
    -- without imports and functions, `main` is called at the place where the program starts
    refine (descends_ask (by simp [Symbol.rank]) depth).bind fun is _ => ?_
    refine (descends_ask (by simp [Symbol.rank]) depth).bind fun fs _ => ?_
    exact descends_see _ fun _ =>
      .ite (descends_phrase (by simp [Symbol.rank]) rfl depth _) (descends_read _ _)
  | libraryItem =>
    refine descends_see _ fun _ => .ite (descends_phrase (by decide) rfl depth _) ?_
    refine descends_see _ fun _ => .ite (descends_phrase (by decide) rfl depth _) ?_
    exact descends_see _ fun _ => descends_read _ _
  | library => exact (descends_ask (by decide) depth).bind fun _ _ => descends_pure _

/-! ## How deep calls stand in each other -/

/-- More than the number of calls that can stand in each other, the outermost one being of the
function `x` with the tokens `ts` ahead. -/
def height (x : Symbol α) (ts : List Token) : Nat := Symbol.ranks * ts.length + x.rank

/-- Calls further on or on a lower level have fewer calls inside them. -/
lemma Call.Below.height_lt {c : Call} {x : Symbol α} {ts : List Token} (h : c.Below x ts) :
    height c.symbol c.ahead < height x ts := by
  rcases h with ⟨-, hlt⟩ | ⟨heq, hlt⟩
  · have hrank := c.symbol.rank_lt
    have hle : Symbol.ranks * (c.ahead.length + 1) ≤ Symbol.ranks * ts.length :=
      Nat.mul_le_mul_left _ hlt
    rw [Nat.mul_add] at hle
    unfold height
    omega
  · unfold height
    rw [heq]
    omega

/-- **Unrolling ends.**  After more rounds of unrolling than calls can stand in each other, only the
rules are left, whatever was there before.

**Proof sketch.** Induction on the number of rounds.  The outermost round carries out a plan, and
all its calls are below, so that the other rounds are enough for them. -/
theorem iterate_unroll (X : Readers) {n : Nat} {x : Symbol α} {ts : List Token}
    (h : height x ts < n) (depth : Nat) : (unroll^[n] X) x depth ts = ruleOf x depth ts := by
  induction n generalizing α x ts depth with
  | zero => omega
  | succ n ih =>
    rw [Function.iterate_succ_apply', ruleOf_eq]
    refine run_congr (plan x depth) fun c hc => ih ?_ c.depth
    have := (calls_below x depth ts c hc).height_lt
    omega

end Grammar

/-! ## Positions -/

namespace Session

variable {α : Type} {s : Session}

/-- What is ahead further on. -/
lemma ahead_add {n : Nat} (h : n ≤ s.ahead.length) :
    ahead ⟨s.tokens, s.pos + n⟩ = s.ahead.drop n := by
  unfold ahead at h ⊢
  rw [← List.drop_drop]
  generalize s.tokens.drop s.pos = ts at h
  induction n generalizing ts with
  | zero => rfl
  | succ n ih =>
    cases ts with
    | nil => simp
    | cons t ts =>
      by_cases ht : t.kind = .endOfFile
      · simp [ht] at h
      · simp only [List.takeWhile_cons, ht, ne_eq, not_false_eq_true, decide_true, ↓reduceIte,
          List.length_cons, Nat.add_le_add_iff_right, List.drop_succ_cons] at h ⊢
        exact ih ts h

/-- The position behind as many tokens as were taken if the tokens `us` are left. -/
def posAt (s : Session) (us : List Token) : Nat := s.pos + (s.ahead.length - us.length)

/-- At the position that belongs to a rest of the tokens ahead, this rest is ahead. -/
lemma ahead_posAt {us : List Token} (h : us <:+ s.ahead) : ahead ⟨s.tokens, s.posAt us⟩ = us := by
  rw [posAt, ahead_add (Nat.sub_le _ _)]
  exact (List.suffix_iff_eq_drop.1 h).symm

/-- What is read depends only on what the rule gives for the tokens ahead. -/
lemma read_congr {r r' : Rule α} (h : r s.ahead = r' s.ahead) : s.read r = s.read r' := by
  unfold read
  rw [h]

/-- Reading by a rule that takes a token moves the position. -/
lemma pos_lt_read {r : Rule α} {a : α} (hr : r.Shrinking) (h : (s.read r).1 = .ok a) :
    s.pos < (s.read r).2.pos := by
  obtain ⟨rest, hrest⟩ := read_eq_ok.1 h
  have hlt := hr hrest
  have hpos : (s.read r).2.pos = s.posAt rest := by
    unfold read
    rw [hrest]
    rfl
  rw [hpos, posAt]
  omega

end Session

namespace Grammar

/-- **Reading ends.**  Whatever the tokens are and wherever reading starts among them: a function
that reads a phrase and succeeds leaves the position further on.  Each function carries out its
plan, and each of its calls, rounds of loops included, starts behind the tokens that were taken
before it: at a position further on, or at the same position and on a lower level of the grammar.
So reading a program or a library ends: however calls are answered that stand in each other deeper
than the tokens and levels allow, the outcome is the same.

**Proof sketch.** The rules for phrases take a token (`Idyl.Grammar.ruleOf_shrinking`), calls
descend (`Idyl.Grammar.calls_below`), and the rules are what is left after unrolling the plans often
enough (`Idyl.Grammar.iterate_unroll`). -/
theorem reading_terminates :
    (∀ {α : Type} (x : Symbol α) (depth : Nat) (s : Session) (a : α), x.isLoop = false →
      (s.read (ruleOf x depth)).1 = .ok a → s.pos < (s.read (ruleOf x depth)).2.pos) ∧
    (∀ {α : Type} (x : Symbol α) (depth : Nat) (s : Session),
      s.read (ruleOf x depth) = s.read ((plan x depth).run ruleOf) ∧
      ∀ c ∈ (plan x depth).calls ruleOf s.ahead,
        c.ahead <:+ s.ahead ∧ Session.ahead ⟨s.tokens, s.posAt c.ahead⟩ = c.ahead ∧
          (s.pos < s.posAt c.ahead ∨
            (s.posAt c.ahead = s.pos ∧ c.symbol.rank < x.rank))) ∧
    ∀ (s : Session) (X : Readers) (n : Nat), Symbol.ranks * (s.ahead.length + 1) ≤ n →
      s.program = s.read ((unroll^[n] X) (.program s.file) maxDepth) ∧
      s.library = s.read ((unroll^[n] X) .library maxDepth) := by
  refine ⟨fun x depth s a hx h => Session.pos_lt_read (ruleOf_shrinking depth hx) h,
    fun x depth s => ⟨by rw [ruleOf_eq x depth]; rfl, fun c hc => ?_⟩, fun s X n hn => ?_⟩
  · have hsuffix := suffix_of_mem_calls _ hc
    refine ⟨hsuffix, Session.ahead_posAt hsuffix, ?_⟩
    unfold Session.posAt
    rcases calls_below x depth s.ahead c hc with ⟨-, hlt⟩ | ⟨heq, hlt⟩
    · left
      omega
    · right
      rw [heq, Nat.sub_self]
      exact ⟨rfl, hlt⟩
  · have hheight : ∀ {α : Type} (x : Symbol α), height x s.ahead < n := by
      intro α x
      have hrank := x.rank_lt
      rw [Nat.mul_add] at hn
      unfold height
      omega
    exact ⟨Session.read_congr (iterate_unroll X (hheight (.program s.file)) maxDepth).symm,
      Session.read_congr (iterate_unroll X (hheight .library) maxDepth).symm⟩

/-- The tokens of `; not x.y = int`, without an end of file. -/
def unended : List Token :=
  [.punct .semi, .keyword .not, .identifier "x", .punct .dot, .identifier "y", .punct .assign,
   .keyword .int].map fun k => ⟨k, "", {}, "a.idyl"⟩

/-- From the second of these tokens on, an operand is read.  It starts by a call at the same
position and on a lower level, and this one, behind `not`, by a call at the third token; and reading
a library ends, with no answers to calls that stand too deep in each other. -/
theorem reading_terminates_unended :
    ∃ e, (Session.read ⟨unended, 1⟩ (ruleOf .operand 2)).1 = .ok e ∧
      1 < (Session.read ⟨unended, 1⟩ (ruleOf .operand 2)).2.pos ∧
      (Session.posAt ⟨unended, 1⟩ (unended.drop 1) = 1 ∧
        Symbol.prefixed.rank < Symbol.operand.rank) ∧
      1 < Session.posAt ⟨unended, 1⟩ (unended.drop 2) ∧
      Session.library ⟨unended, 1⟩ = Session.read ⟨unended, 1⟩
        ((unroll^[112] fun _ _ _ => Rule.fault (.tooDeep .expression)) .library maxDepth) := by
  obtain ⟨hphrase, hcalls, hends⟩ := reading_terminates
  have hlevel := ((hcalls .operand 2 ⟨unended, 1⟩).2
    ⟨.prefixed, 1, unended.drop 1⟩ List.mem_cons_self).2.2
  have hfurther := ((hcalls .prefixed 1 ⟨unended, 1⟩).2
    ⟨.operand, 1, unended.drop 2⟩ List.mem_cons_self).2.2
  refine ⟨_, rfl, hphrase .operand 2 ⟨unended, 1⟩ _ rfl rfl, ?_, ?_,
    (hends ⟨unended, 1⟩ _ 112 (by decide)).2⟩
  · exact hlevel.resolve_left (by decide)
  · exact hfurther.resolve_right fun h => absurd h.1 (by decide)

end Grammar

end Idyl
