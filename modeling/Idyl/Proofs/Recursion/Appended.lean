import Mathlib
import Idyl.Proofs.Recursion.Induction

/-!
# Reading with `main` behind the tokens

What is read of the tokens in front of `main` does not depend on `main`.  No phrase but a program
has this word in it, and where a phrase could go on, neither `main` nor the end of the file takes
part in it.  So a function that is no program and no library reads the same, whether the tokens end
or `main` follows them.

## Main definitions

* `Idyl.Rule.Keeps` — rules that read the same with more tokens behind.
* `Idyl.Grammar.Symbol.isInner` — functions for phrases inside of programs and libraries.

## Main results

* `Idyl.Grammar.ruleOf_keeps` — their rules read the same in front of `main`.
-/

set_option autoImplicit false

namespace Idyl

variable {α β : Type} {more : List Token}

/-! ## Rules -/

/-- A rule that reads the same, and as much, if `more` follows the tokens. -/
def Rule.Keeps (more : List Token) (r : Rule α) : Prop :=
  ∀ ⦃ts a rest'⦄, r (ts ++ more) = .ok a rest' ↔ ∃ rest, rest' = rest ++ more ∧ r ts = .ok a rest

/-- A rule that takes one token, and does not take `main`. -/
lemma Rule.keeps_of_token {r : Rule α} {R : Token → α → Prop} (hmain : peek more = .keyword .main)
    (hr : ∀ {ts a rest}, r ts = .ok a rest ↔ ∃ t, ts = t :: rest ∧ R t a)
    (hR : ∀ {t a}, R t a → t.kind ≠ .keyword .main) : r.Keeps more := by
  intro ts a rest'
  rw [hr]
  simp only [hr]
  cases ts with
  | nil =>
    constructor
    · rintro ⟨t, hmore, ht⟩
      rw [List.nil_append] at hmore
      rw [hmore] at hmain
      exact absurd hmain (hR ht)
    · rintro ⟨rest, -, t, hnil, -⟩
      cases hnil
  | cons u us =>
    constructor
    · rintro ⟨t, hcons, ht⟩
      obtain ⟨rfl, rfl⟩ := List.cons.inj hcons
      exact ⟨us, rfl, u, rfl, ht⟩
    · rintro ⟨rest, rfl, t, hcons, ht⟩
      obtain ⟨rfl, rfl⟩ := List.cons.inj hcons
      exact ⟨u, rfl, ht⟩

/-- A token other than `main` is not taken from behind the tokens. -/
lemma Rule.token_keeps {k : TokenKind} {place : String} (hmain : peek more = .keyword .main)
    (hk : k ≠ .keyword .main) : (Rule.token k place).Keeps more := by
  refine keeps_of_token (R := fun t a => a = t ∧ t.kind = k) hmain ?_ ?_
  · intro ts a rest
    rw [token_eq_ok]
    constructor
    · rintro ⟨rfl, h⟩
      exact ⟨a, rfl, rfl, h⟩
    · rintro ⟨t, rfl, rfl, h⟩
      exact ⟨rfl, h⟩
  · rintro t a ⟨-, rfl⟩
    exact hk

/-- A name is not taken from behind the tokens. -/
lemma Rule.name_keeps {what : String} (hmain : peek more = .keyword .main) :
    (Rule.name what).Keeps more := by
  refine keeps_of_token (R := fun t a => t.kind = .identifier a.1 ∧ t.span = a.2) hmain ?_ ?_
  · rintro ts ⟨n, s⟩ rest
    exact name_eq_ok
  · rintro t a ⟨h, -⟩ hk
    rw [hk] at h
    cases h

/-- A type is not taken from behind the tokens. -/
lemma typeRule_keeps (hmain : peek more = .keyword .main) : typeRule.Keeps more := by
  refine Rule.keeps_of_token (R := fun t a => a.2 = t ∧ tyOfKind? t.kind = some a.1) hmain ?_ ?_
  · rintro ts ⟨type, t⟩ rest
    rw [typeRule_eq_ok]
    constructor
    · rintro ⟨rfl, h⟩
      exact ⟨t, rfl, rfl, h⟩
    · rintro ⟨u, rfl, rfl, h⟩
      exact ⟨rfl, h⟩
  · rintro t a ⟨-, h⟩ hk
    rw [hk] at h
    cases h

/-- A success with more tokens left behind. -/
lemma Reply.ok_append_iff {x a : α} {us rest' : List Token} :
    Reply.ok x (us ++ more) = .ok a rest' ↔
      ∃ rest, rest' = rest ++ more ∧ Reply.ok x us = .ok a rest := by
  constructor
  · rintro ⟨⟩
    exact ⟨us, rfl, rfl⟩
  · rintro ⟨rest, rfl, ⟨⟩⟩
    rfl

/-- Literals and variables. -/
lemma primaryRule_keeps {f : SyntaxFault} (hmain : peek more = .keyword .main) :
    (primaryRule (Rule.fault f)).Keeps more := by
  intro ts e rest'
  cases ts with
  | nil =>
    obtain ⟨m, ms, rfl⟩ : ∃ m ms, more = m :: ms := by
      cases more with
      | nil => cases hmain
      | cons m ms => exact ⟨m, ms, rfl⟩
    have hm : m.kind = .keyword .main := hmain
    simp [primaryRule, hm, Rule.expected, Rule.fault]
  | cons t us =>
    cases hk : t.kind with
    | integer text =>
      simp only [List.cons_append, primaryRule, hk]
      cases readInt? text with
      | some n => exact Reply.ok_append_iff
      | none => simp [Rule.fault]
    | float text =>
      simp only [List.cons_append, primaryRule, hk]
      cases Binary64.ofText? text with
      | some x => exact Reply.ok_append_iff
      | none => simp [Rule.fault]
    | keyword w =>
      cases w with
      | true | false =>
        simp only [List.cons_append, primaryRule, hk]
        exact Reply.ok_append_iff
      | _ => simp [primaryRule, hk, Rule.expected, Rule.fault]
    | string value | char value | identifier name =>
      simp only [List.cons_append, primaryRule, hk]
      exact Reply.ok_append_iff
    | punct p => cases p <;> simp [primaryRule, hk, Rule.expected, Rule.fault]
    | endOfFile => simp [primaryRule, hk, Rule.expected, Rule.fault]

/-! ## What is ahead -/

section Ahead

/-- What is ahead is the same, unless it is `main` or the end. -/
lemma peek_append_of_ne {k : TokenKind} (hmain : peek more = .keyword .main)
    (hk : k ≠ .keyword .main) (hend : k ≠ .endOfFile) (ts : List Token) :
    peek (ts ++ more) = k ↔ peek ts = k := by
  cases ts with
  | nil =>
    rw [List.nil_append, hmain]
    exact ⟨fun h => absurd h.symm hk, fun h => absurd h.symm hend⟩
  | cons t ts => exact Iff.rfl

/-- An import is not seen behind the tokens. -/
lemma importAhead_append (hmain : peek more = .keyword .main) (ts : List Token) :
    importAhead (ts ++ more) = importAhead ts := by
  unfold importAhead
  rw [decide_eq_decide]
  exact peek_append_of_ne hmain (by decide) (by decide) ts

/-- The word `main` is no type. -/
lemma isTypeName_append (hmain : peek more = .keyword .main) (ts : List Token) :
    (peek (ts ++ more)).isTypeName = (peek ts).isTypeName := by
  cases ts with
  | nil =>
    rw [List.nil_append, hmain]
    rfl
  | cons t ts => rfl

/-- A function is not seen behind the tokens. -/
lemma functionAhead_append (hmain : peek more = .keyword .main) (ts : List Token) :
    functionAhead (ts ++ more) = functionAhead ts := by
  cases ts with
  | nil =>
    cases more with
    | nil => rfl
    | cons m ms =>
      have hm : m.kind = .keyword .main := hmain
      simp [functionAhead, hm, TokenKind.startsFunction]
  | cons t ts =>
    simp only [List.cons_append, functionAhead]
    cases t.kind with
    | identifier n =>
      congr 1
      rw [decide_eq_decide]
      exact peek_append_of_ne hmain (by decide) (by decide) ts
    | _ => rfl

/-- No type becomes misspelled by what follows. -/
lemma misspelledType?_append (hmain : peek more = .keyword .main) (ts : List Token) :
    misspelledType? (ts ++ more) = misspelledType? ts := by
  cases more with
  | nil => rw [List.append_nil]
  | cons m ms =>
    have hm : m.kind = .keyword .main := hmain
    rcases ts with _ | ⟨t, _ | ⟨u, us⟩⟩
    · cases ms with
      | nil => rfl
      | cons m' ms => simp [misspelledType?, hm]
    · cases hk : t.kind <;> simp [misspelledType?, hk, hm]
    · rfl

end Ahead

namespace Grammar

/-! ## Plans -/

namespace Plan

variable {X : Readers}

/-- A plan that reads the same, and as much, if `more` follows the tokens. -/
def Keeps (more : List Token) (X : Readers) (p : Plan α) : Prop := (p.run X).Keeps more

/-- A value keeps what follows. -/
lemma keeps_pure (a : α) : Keeps more X (pure a) :=
  fun _ _ _ => Reply.ok_append_iff

/-- **Plans in a row** keep what follows if each of them does. -/
lemma Keeps.bind {p : Plan α} {f : α → Plan β} (hp : Keeps more X p)
    (hf : ∀ a, Keeps more X (f a)) : Keeps more X (p >>= f) := by
  intro ts b rest'
  rw [run_bind]
  simp only [Rule.bind_eq_ok]
  constructor
  · rintro ⟨a, mid', ha, hb⟩
    obtain ⟨mid, rfl, hmid⟩ := hp.1 ha
    obtain ⟨rest, rfl, hrest⟩ := (hf a).1 hb
    exact ⟨rest, rfl, a, mid, hmid, hrest⟩
  · rintro ⟨rest, rfl, a, mid, ha, hb⟩
    exact ⟨a, mid ++ more, hp.2 ⟨mid, rfl, ha⟩, (hf a).2 ⟨rest, rfl, hb⟩⟩

/-- A rule that keeps what follows. -/
lemma keeps_read {r : Rule α} {recedes : r.Recedes} (hr : r.Keeps more) :
    Keeps more X (read r recedes) := by
  unfold Keeps
  rw [run_read]
  exact hr

/-- A call of a function that keeps what follows. -/
lemma keeps_ask {x : Symbol α} {depth : Nat} (hx : (X x depth).Keeps more) :
    Keeps more X (ask x depth) := by
  unfold Keeps
  rw [run_ask]
  exact hx

/-- Looking at what is ahead, which makes a difference at most where the tokens end. -/
lemma keeps_look {see : List Token → α} {f : α → Plan β}
    (hsee : ∀ t ts, see (t :: ts ++ more) = see (t :: ts)) (hf : ∀ a, Keeps more X (f a))
    (hend : ∀ b rest', (f (see more)).run X more = .ok b rest' ↔
      ∃ rest, rest' = rest ++ more ∧ (f (see [])).run X [] = .ok b rest) :
    Keeps more X (Plan.see see >>= f) := by
  intro ts b rest'
  have hrun : ∀ ts, (Plan.see see >>= f).run X ts = (f (see ts)).run X ts := by
    intro ts
    rw [run_bind]
    rfl
  rw [hrun, hrun]
  cases ts with
  | nil => exact hend b rest'
  | cons t ts =>
    rw [hsee]
    exact @hf (see (t :: ts)) (t :: ts) b rest'

/-- Looking ahead, where what follows makes no difference. -/
lemma keeps_see {see : List Token → α} {f : α → Plan β} (hsee : ∀ ts, see (ts ++ more) = see ts)
    (hf : ∀ a, Keeps more X (f a)) : Keeps more X (Plan.see see >>= f) := by
  refine keeps_look (fun t ts => hsee (t :: ts)) hf fun b rest' => ?_
  have hnil : see more = see [] := hsee []
  rw [hnil]
  exact @hf (see []) [] b rest'

/-- A choice that is made without looking. -/
lemma Keeps.ite {c : Prop} [Decidable c] {p q : Plan α} (hp : Keeps more X p)
    (hq : Keeps more X q) : Keeps more X (if c then p else q) := by
  split
  · exact hp
  · exact hq

/-- A fault never succeeds. -/
lemma keeps_fault (f : SyntaxFault) : Keeps more X (Plan.fault f : Plan α) :=
  keeps_read fun _ _ _ => by simp [Rule.fault]

/-- Nor does one at an earlier token. -/
lemma keeps_faultAt (t : Token) (f : SyntaxFault) : Keeps more X (Plan.faultAt t f : Plan α) :=
  keeps_read fun _ _ _ => by simp [Rule.faultAt]

variable (hmain : peek more = .keyword .main)

include hmain

/-- Marks. -/
lemma keeps_mark (p : Punct) (place : String) : Keeps more X (Plan.mark p place) :=
  keeps_read (Rule.token_keeps hmain (by simp))

/-- Words other than `main`. -/
lemma keeps_word {k : Keyword} (hk : k ≠ .main) (place : String) :
    Keeps more X (Plan.word k place) :=
  keeps_read (Rule.token_keeps hmain (by simpa using hk))

/-- Names. -/
lemma keeps_name (what : String) : Keeps more X (Plan.name what) :=
  keeps_read (Rule.name_keeps hmain)

/-- Looking for a token other than `main` and the end of the file. -/
lemma keeps_ahead {k : TokenKind} (hk : k ≠ .keyword .main) (hend : k ≠ .endOfFile)
    {p q : Plan α} (hp : Keeps more X p) (hq : Keeps more X q) :
    Keeps more X (ahead k >>= fun b => if b = true then p else q) := by
  refine keeps_see (fun ts => ?_) fun b => .ite hp hq
  rw [decide_eq_decide]
  exact peek_append_of_ne hmain hk hend ts

/-- Looking at a token, where `main` makes no other difference than the end of the file. -/
lemma keeps_peek {f : TokenKind → Plan α} (hf : ∀ k, Keeps more X (f k))
    (hsame : f (.keyword .main) = f .endOfFile) : Keeps more X (Plan.see peek >>= f) := by
  refine keeps_look (fun _ _ => rfl) hf fun b rest' => ?_
  rw [hmain, hsame]
  exact @hf .endOfFile [] b rest'

end Plan

/-! ## The phrases inside of programs and libraries -/

/-- Functions for phrases inside of programs and libraries. -/
def Symbol.isInner {α : Type} : Symbol α → Bool
  | main | program _ | libraryItem | libraryItems | library => false
  | _ => true

/-- Rules that give only what the rules of the grammar give. -/
def Below (X : Readers) : Prop :=
  ∀ ⦃γ : Type⦄ (x : Symbol γ) (depth : Nat) ⦃ts a rest⦄,
    X x depth ts = .ok a rest → ruleOf x depth ts = .ok a rest

/-- Rules that read the same in front of `main`. -/
structure Stable (more : List Token) (X : Readers) : Prop where
  below : Below X
  keeps : ∀ ⦃γ : Type⦄ (x : Symbol γ), x.isInner = true → ∀ depth, (X x depth).Keeps more

open Plan

section Plans

variable {X : Readers} {depth : Nat}

/-- Calls of functions that read inner phrases. -/
lemma Stable.ask (hX : Stable more X) (x : Symbol α) (hx : x.isInner = true) (depth : Nat) :
    Keeps more X (ask x depth) :=
  keeps_ask (hX.keeps x hx depth)

variable (hX : Stable more X) (hmain : peek more = .keyword .main)

include hX hmain

/-- Literals, names and groups. -/
lemma primary_keeps : Keeps more X (primaryPlan depth) := by
  refine keeps_ahead hmain (by decide) (by decide) ?_ (keeps_read (primaryRule_keeps hmain))
  refine (keeps_mark hmain _ _).bind fun _ => ?_
  cases depth with
  | zero => exact keeps_fault _
  | succ inner =>
    refine (hX.ask .expression rfl inner).bind fun e => ?_
    exact (keeps_mark hmain _ _).bind fun _ => keeps_pure e

/-- Calls and members behind an expression. -/
lemma suffixes_keeps (e : Expr) : Keeps more X (suffixesPlan depth e) := by
  refine keeps_ahead hmain (by decide) (by decide) ?_
    (keeps_ahead hmain (by decide) (by decide) ?_ (keeps_pure e))
  · refine (keeps_mark hmain _ _).bind fun _ => (hX.ask .arguments rfl depth).bind fun args => ?_
    exact (keeps_mark hmain _ _).bind fun closing => hX.ask (.suffixes _) rfl depth
  · refine (keeps_mark hmain _ _).bind fun _ => (keeps_name hmain _).bind fun property => ?_
    exact hX.ask (.suffixes _) rfl depth

/-- Operators in front of an operand. -/
lemma prefixed_keeps : Keeps more X (prefixedPlan depth) := by
  refine keeps_ahead hmain (by decide) (by decide) ?_
    (keeps_ahead hmain (by decide) (by decide) ?_ (hX.ask .suffixed rfl depth))
  · refine (keeps_word hmain (by decide) _).bind fun sign => ?_
    exact (hX.ask .operand rfl depth).bind fun e => keeps_pure _
  · refine (keeps_mark hmain _ _).bind fun sign => ?_
    exact (hX.ask .operand rfl depth).bind fun e => keeps_pure _

/-- Neither `main` nor the end of the file is an operator. -/
lemma joins_keeps (level : Fin BinaryOp.loosest) (left : Expr) :
    Keeps more X (joinsPlan depth level left) := by
  refine keeps_peek hmain (fun k => ?_) rfl
  cases hk : binaryOp? k with
  | none => exact keeps_pure left
  | some op =>
    refine .ite (.bind (keeps_read (Rule.token_keeps hmain ?_)) fun _ => ?_) (keeps_pure left)
    · rintro rfl
      cases hk
    · exact (hX.ask (.binary _) rfl depth).bind fun right => hX.ask (.joins _ _) rfl depth

/-- Expressions. -/
lemma expression_keeps : Keeps more X (expressionPlan depth) := by
  refine (hX.ask (.binary _) rfl depth).bind fun target => ?_
  refine keeps_ahead hmain (by decide) (by decide) ?_ (keeps_pure target)
  refine (keeps_mark hmain _ _).bind fun sign => ?_
  cases target with
  | var name s => exact (hX.ask .expression rfl depth).bind fun value => keeps_pure _
  | _ => exact keeps_faultAt _ _

/-- The arguments of a call. -/
lemma arguments_keeps : Keeps more X (argumentsPlan depth) := by
  refine keeps_ahead hmain (by decide) (by decide) (keeps_pure _) ?_
  refine (hX.ask .expression rfl depth).bind fun first => ?_
  exact (hX.ask .moreArguments rfl depth).bind fun others => keeps_pure _

/-- Arguments behind commas. -/
lemma moreArguments_keeps : Keeps more X (moreArgumentsPlan depth) := by
  refine keeps_ahead hmain (by decide) (by decide) ?_ (keeps_pure _)
  refine (keeps_mark hmain _ _).bind fun _ => (hX.ask .expression rfl depth).bind fun e => ?_
  exact (hX.ask .moreArguments rfl depth).bind fun others => keeps_pure _

/-- Blocks. -/
lemma block_keeps : Keeps more X (blockPlan depth) := by
  refine (keeps_mark hmain _ _).bind fun opening => ?_
  exact (hX.ask .items rfl depth).bind fun inside => keeps_pure _

/-- Inside of a block, where the tokens end a brace is missing, and where `main` follows nothing can
be read: here the two readings go different ways, but both fail. -/
lemma items_keeps : Keeps more X (itemsPlan depth) := by
  refine keeps_look (fun _ _ => rfl) (fun b => .ite ?_ ?_) fun inside rest' => ?_
  · refine (hX.ask .item rfl depth).bind fun s => ?_
    exact (hX.ask .items rfl depth).bind fun inside => keeps_pure _
  · exact (keeps_mark hmain _ _).bind fun closing => keeps_pure _
  · have hblock : inBlock more = true := by
      simp [inBlock, hmain]
    have hnil : inBlock [] = false := rfl
    simp only [hblock, hnil, if_true, Bool.false_eq_true, if_false, run_bind, Rule.bind_eq_ok]
    constructor
    · rintro ⟨s, mid, hs, -⟩
      rw [run_ask] at hs
      obtain ⟨rest, -, hs⟩ := (@hX.keeps _ .item rfl depth [] s mid).1 hs
      exact absurd (ruleOf_shrinking depth rfl (hX.below .item depth hs)) (Nat.not_lt_zero _)
    · rintro ⟨rest, -, closing, mid, hclosing, -⟩
      rw [Plan.mark, run_read] at hclosing
      cases hclosing

/-- Declarations of variables. -/
lemma declaration_keeps : Keeps more X (declarationPlan depth) := by
  refine (hX.ask .type rfl depth).bind fun type => (keeps_name hmain _).bind fun n => ?_
  dsimp only
  cases type.1.default? with
  | none => exact keeps_faultAt _ _
  | some value =>
    have hend : ∀ init, Keeps more X (do
        let semi ← Plan.mark .semi "after variable declaration"
        pure (Stmt.declare type.1 n.1 init (type.2.span.merge semi.span))) :=
      fun init => (keeps_mark hmain _ _).bind fun semi => keeps_pure _
    refine keeps_ahead hmain (by decide) (by decide) ?_ (hend _)
    exact (keeps_mark hmain _ _).bind fun _ => (hX.ask .expression rfl depth).bind hend

/-- Conditions in parentheses. -/
lemma condition_keeps (place : String) : Keeps more X (conditionPlan depth place) := by
  refine (keeps_mark hmain _ _).bind fun _ => (hX.ask .expression rfl depth).bind fun c => ?_
  exact (keeps_mark hmain _ _).bind fun _ => keeps_pure c

/-- An `else` is not seen behind the tokens. -/
lemma if_keeps : Keeps more X (ifPlan depth) := by
  refine (keeps_word hmain (by decide) _).bind fun start => ?_
  refine (condition_keeps hX hmain _).bind fun condition => ?_
  refine (hX.ask .statement rfl depth).bind fun thenBranch => ?_
  refine keeps_ahead hmain (by decide) (by decide) ?_ (keeps_pure _)
  refine (keeps_word hmain (by decide) _).bind fun _ => ?_
  exact (hX.ask .statement rfl depth).bind fun elseBranch => keeps_pure _

/-- Loops. -/
lemma while_keeps : Keeps more X (whilePlan depth) := by
  refine (keeps_word hmain (by decide) _).bind fun start => ?_
  refine (condition_keeps hX hmain _).bind fun condition => ?_
  exact (hX.ask .statement rfl depth).bind fun body => keeps_pure _

/-- A `return` with or without a value. -/
lemma return_keeps : Keeps more X (returnPlan depth) := by
  refine (keeps_word hmain (by decide) _).bind fun start => ?_
  have hend : ∀ value : Option Expr, Keeps more X (do
      let semi ← Plan.mark .semi "after return"
      pure (Stmt.return_ value (start.span.merge semi.span))) :=
    fun value => (keeps_mark hmain _ _).bind fun semi => keeps_pure _
  refine keeps_ahead hmain (by decide) (by decide) (hend none) ?_
  exact (hX.ask .expression rfl depth).bind fun e => hend (some e)

/-- Expressions with a semicolon. -/
lemma eval_keeps : Keeps more X (evalPlan depth) := by
  refine (hX.ask .expression rfl depth).bind fun e => ?_
  exact (keeps_mark hmain _ _).bind fun semi => keeps_pure _

/-- All forms of statements. -/
lemma form_keeps : Keeps more X (formPlan depth) := by
  refine keeps_ahead hmain (by decide) (by decide) (if_keeps hX hmain) ?_
  refine keeps_ahead hmain (by decide) (by decide) (while_keeps hX hmain) ?_
  refine keeps_ahead hmain (by decide) (by decide) (return_keeps hX hmain) ?_
  refine keeps_ahead hmain (by decide) (by decide) ?_ (eval_keeps hX hmain)
  exact (hX.ask .block rfl depth).bind fun b => keeps_pure _

/-- What stands in a block. -/
lemma item_keeps : Keeps more X (itemPlan depth) := by
  refine keeps_see (isTypeName_append hmain) fun b => .ite (hX.ask .declaration rfl depth) ?_
  refine keeps_see (misspelledType?_append hmain) fun n => ?_
  cases n with
  | some n => exact keeps_fault _
  | none => exact hX.ask .statement rfl depth

/-- The parameters of a function. -/
lemma params_keeps (function : String) : Keeps more X (paramsPlan depth function) := by
  refine keeps_ahead hmain (by decide) (by decide) (keeps_pure _) ?_
  refine (hX.ask .type rfl depth).bind fun type => (keeps_name hmain _).bind fun n => ?_
  exact keeps_ahead hmain (by decide) (by decide) (keeps_fault _) (keeps_pure _)

/-- Functions other than `main`. -/
lemma function_keeps : Keeps more X (functionPlan depth) := by
  refine (hX.ask .type rfl depth).bind fun type => ?_
  refine (keeps_word hmain (by decide) _).bind fun _ => (keeps_name hmain _).bind fun n => ?_
  refine (keeps_mark hmain _ _).bind fun _ => (params_keeps hX hmain _).bind fun params => ?_
  refine (keeps_mark hmain _ _).bind fun _ => ?_
  exact (hX.ask .block rfl maxDepth).bind fun body => keeps_pure _

omit hmain in
/-- Phrases one after the other, if none is seen to start behind the tokens. -/
lemma list_keeps {x : Symbol α} {xs : Symbol (List α)} {starts : List Token → Bool}
    (hstarts : ∀ ts, starts (ts ++ more) = starts ts) (hx : x.isInner = true)
    (hxs : xs.isInner = true) :
    Keeps more X (listPlan starts (ask x depth) (ask xs depth)) := by
  refine keeps_see hstarts fun b => .ite ?_ (keeps_pure _)
  exact (hX.ask x hx depth).bind fun a => (hX.ask xs hxs depth).bind fun as => keeps_pure _

omit hX in
/-- Imports. -/
lemma importRule_keeps : importRule.Keeps more := by
  have hplan : importRule = (do
      let start ← Plan.word .use ""
      let n ← Plan.name "module name after 'use'"
      let semi ← Plan.mark .semi "after module name"
      pure ⟨n.1, start.span.merge semi.span⟩ : Plan Import).run nothing := by
    simp only [run_bind, Plan.word, Plan.name, Plan.mark, run_read, run_pure]
    rfl
  rw [hplan]
  refine (keeps_word hmain (by decide) _).bind fun start => (keeps_name hmain _).bind fun n => ?_
  exact (keeps_mark hmain _ _).bind fun semi => keeps_pure _

/-- **One round of plans** reads the same in front of `main`, if the rules for its calls do. -/
lemma plan_keeps (x : Symbol α) (hx : x.isInner = true) (depth : Nat) :
    Keeps more X (plan x depth) := by
  cases x with
  | primary => exact primary_keeps hX hmain
  | suffixes e => exact suffixes_keeps hX hmain e
  | suffixed => exact (hX.ask .primary rfl depth).bind fun e => hX.ask (.suffixes e) rfl depth
  | prefixed => exact prefixed_keeps hX hmain
  | operand =>
    cases depth with
    | zero => exact keeps_fault _
    | succ depth => exact hX.ask .prefixed rfl depth
  | joins level left => exact joins_keeps hX hmain level left
  | binary level =>
    induction level using Fin.cases with
    | zero => exact hX.ask .operand rfl depth
    | succ below =>
      exact (hX.ask (.binary _) rfl depth).bind fun left => hX.ask (.joins below left) rfl depth
  | expression => exact expression_keeps hX hmain
  | arguments => exact arguments_keeps hX hmain
  | moreArguments => exact moreArguments_keeps hX hmain
  | block => exact block_keeps hX hmain
  | items => exact items_keeps hX hmain
  | declaration => exact declaration_keeps hX hmain
  | form => exact form_keeps hX hmain
  | statement =>
    cases depth with
    | zero => exact keeps_fault _
    | succ depth => exact hX.ask .form rfl depth
  | item => exact item_keeps hX hmain
  | type => exact keeps_read (typeRule_keeps hmain)
  | import_ => exact keeps_read (importRule_keeps hmain)
  | function => exact function_keeps hX hmain
  | imports => exact list_keeps hX (importAhead_append hmain) rfl rfl
  | functions => exact list_keeps hX (functionAhead_append hmain) rfl rfl
  | main | program _ | libraryItem | libraryItems | library => cases hx

end Plans

/-- Plans over rules that give only what the rules of the grammar give. -/
lemma run_below {X : Readers} (hX : Below X) (p : Plan α) {ts rest : List Token} {a : α}
    (h : p.run X ts = .ok a rest) : p.run ruleOf ts = .ok a rest := by
  induction p generalizing ts with
  | done b => exact h
  | step r recedes goOn ih =>
    rw [run, Rule.bind_eq_ok] at h ⊢
    obtain ⟨b, mid, hb, h⟩ := h
    exact ⟨b, mid, hb, ih b h⟩
  | call x depth goOn ih =>
    rw [run, Rule.bind_eq_ok] at h ⊢
    obtain ⟨b, mid, hb, h⟩ := h
    exact ⟨b, mid, hX x depth hb, ih b h⟩

/-- **Reading in front of `main`.**  A phrase inside of programs and libraries is read the same,
whether the tokens end or `main` follows them. -/
theorem ruleOf_keeps (hmain : peek more = .keyword .main) (x : Symbol α) (hx : x.isInner = true)
    (depth : Nat) : (ruleOf x depth).Keeps more := by
  intro ts a rest'
  have hstable : Stable more (unroll^[height x (ts ++ more) + 1] nothing) := by
    refine iterate_induction ⟨?_, ?_⟩ (fun X hX => ⟨?_, ?_⟩) _
    · rintro _ _ _ _ _ _ ⟨⟩
    · intro γ x hx depth ts a rest'
      simp [nothing, Rule.fault]
    · intro γ x depth ts a rest h
      rw [ruleOf_eq]
      exact run_below hX.below (plan x depth) h
    · intro γ x hx depth
      exact plan_keeps hX hmain x hx depth
  have hkeeps := @hstable.keeps _ x hx depth ts a rest'
  have hle : height x ts ≤ height x (ts ++ more) := by
    unfold height
    rw [List.length_append]
    exact Nat.add_le_add_right (Nat.mul_le_mul_left _ (Nat.le_add_right _ _)) _
  rwa [iterate_unroll nothing (Nat.lt_succ_self _), iterate_unroll nothing (by omega)] at hkeeps

end Grammar

end Idyl
