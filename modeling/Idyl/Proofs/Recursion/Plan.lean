import Mathlib
import Idyl.Proofs.Grammar.Lookahead

/-!
# The grammar as functions that call each other

The rules of the grammar count: levels of nesting that are left, and rounds of a repetition.  Here
the grammar is written down once more without rounds, as a system of functions that call each other.
There is one function for each kind of phrase and one for each loop, which calls itself for the next
round.  What a function does is a plan: it takes tokens, looks at those ahead, and calls functions.

A plan can be carried out over any rules for the functions that it calls, and all calls that are
made on the way can be listed.

## Main definitions

* `Idyl.Grammar.Symbol` — the functions.
* `Idyl.Grammar.Plan` — what a function does.
* `Idyl.Grammar.plan` — the system of functions.
* `Idyl.Grammar.Plan.run`, `Idyl.Grammar.Plan.calls` — carrying out a plan, and the calls made.

## Main results

* `Idyl.Grammar.Plan.run_bind`, `Idyl.Grammar.Plan.mem_calls_bind` — plans one after the other.
* `Idyl.Grammar.Plan.run_congr` — a plan depends on its calls only.
-/

set_option autoImplicit false

namespace Idyl

/-! ## Rules one after the other -/

namespace Rule

variable {α β : Type}

instance : LawfulMonad Rule := by
  refine LawfulMonad.mk' Rule (fun r => ?_) (fun a f => rfl) (fun r f g => ?_)
  · funext ts
    show (r >>= pure) ts = r ts
    cases hr : r ts with
    | ok a rest => exact bind_of_ok hr
    | fail e rest => exact bind_of_fail hr
  · funext ts
    cases hr : r ts with
    | ok a rest =>
      rw [bind_of_ok hr]
      simp only [Bind.bind, hr]
    | fail e rest => rw [bind_of_fail hr, bind_of_fail (bind_of_fail hr)]

/-- Looks at the tokens ahead. -/
def look (see : List Token → β) : Rule β := fun ts => .ok (see ts) ts

/-- A rule that gives no token back. -/
def Recedes (r : Rule α) : Prop := ∀ ⦃ts a rest⦄, r ts = .ok a rest → rest <:+ ts

/-- A rule that takes the first tokens leaves the others. -/
lemma Shortsighted.recedes {r : Rule α} (h : r.Shortsighted) : r.Recedes := by
  intro ts a rest hr
  obtain ⟨n, hn⟩ := h ts
  have hrest : rest = ts.drop n := by
    have := hn.rest_eq
    rwa [hr] at this
  rw [hrest]
  exact List.drop_suffix n ts

/-- Rules in a row leave what the second one leaves. -/
lemma Recedes.bind {r : Rule α} {f : α → Rule β} (hr : r.Recedes) (hf : ∀ a, (f a).Recedes) :
    (r >>= f).Recedes := by
  intro ts b rest h
  obtain ⟨a, mid, hmid, hrest⟩ := bind_eq_ok.1 h
  exact (hf a hrest).trans (hr hmid)

/-- Looking leaves everything. -/
lemma look_recedes (see : List Token → β) : (look see).Recedes := by
  intro ts b rest h
  obtain ⟨-, rfl⟩ := Reply.ok.inj h
  exact List.suffix_rfl

/-- A choice between rules, carried out. -/
lemma ite_apply {c : Prop} [Decidable c] (r u : Rule α) (ts : List Token) :
    (if c then r else u) ts = if c then r ts else u ts := by
  split <;> rfl

/-- Looking, and then what follows. -/
lemma look_bind (see : List Token → β) (f : β → Rule α) (ts : List Token) :
    (look see >>= f) ts = f (see ts) ts := rfl

end Rule

namespace Grammar

/-! ## Functions -/

/-- The functions that read a file: one for each kind of phrase, and one for each loop, with what
they give.  Operators between operands have levels, from one to `BinaryOp.loosest`; `binary level`
reads the expressions whose operators have at most this level. -/
inductive Symbol : Type → Type
  | primary : Symbol Expr
  /-- Calls and member accesses behind `e`, as many as there are. -/
  | suffixes (e : Expr) : Symbol Expr
  | suffixed : Symbol Expr
  | prefixed : Symbol Expr
  | operand : Symbol Expr
  /-- Operators of one level more than `level` behind `left`, as many as there are, and the
  operands to their right. -/
  | joins (level : Fin BinaryOp.loosest) (left : Expr) : Symbol Expr
  | binary (level : Fin (BinaryOp.loosest + 1)) : Symbol Expr
  | expression : Symbol Expr
  | arguments : Symbol (List Expr)
  /-- Arguments behind a comma, as many as there are. -/
  | moreArguments : Symbol (List Expr)
  | block : Symbol Block
  /-- What stands in a block, up to the brace that closes it. -/
  | items : Symbol (List Stmt × Token)
  | declaration : Symbol Stmt
  | form : Symbol Stmt
  | statement : Symbol Stmt
  | item : Symbol Stmt
  | type : Symbol (Ty × Token)
  | import_ : Symbol Import
  | function : Symbol Function
  | main : Symbol Function
  /-- Imports, as many as there are. -/
  | imports : Symbol (List Import)
  /-- Functions, as many as there are. -/
  | functions : Symbol (List Function)
  | program (file : String) : Symbol Program
  | libraryItem : Symbol (Option Function)
  /-- Imports and functions, up to the end of the file. -/
  | libraryItems : Symbol (List (Option Function))
  | library : Symbol (List Function)

namespace Symbol

variable {α : Type}

/-- Whether a function reads a list of phrases, or what may follow a phrase.  Such a function may
succeed without taking a token. -/
def isLoop : Symbol α → Bool
  | suffixes _ | joins _ _ | arguments | moreArguments | imports | functions | libraryItems
  | library => true
  | _ => false

/-- The level of a function in the grammar.  Without taking a token first, a function calls only
functions of lower levels. -/
def rank : Symbol α → Nat
  | primary | suffixes _ | joins _ _ | moreArguments | block | type | import_ | main => 0
  | suffixed | declaration | function | imports => 1
  | prefixed | functions | libraryItem => 2
  | operand | program _ | libraryItems => 3
  | binary level => 4 + level
  | library => 4
  | expression => 11
  | arguments | form => 12
  | statement => 13
  | item => 14
  | items => 15

/-- The number of levels. -/
def ranks : Nat := 16

/-- There are only so many levels. -/
lemma rank_lt (x : Symbol α) : x.rank < ranks := by
  cases x with
  | binary level =>
    have : (level : Nat) < 7 := level.isLt
    simp only [rank, ranks]
    omega
  | _ => simp [rank, ranks]

end Symbol

/-- Rules for all functions, with any number of levels of nesting left. -/
abbrev Readers : Type 1 := ⦃α : Type⦄ → Symbol α → Nat → Rule α

/-! ## Plans -/

/-- What a function does: steps that take tokens or look at them, and calls. -/
inductive Plan (α : Type) : Type 1
  | done (a : α)
  | step {β : Type} (r : Rule β) (recedes : r.Recedes) (goOn : β → Plan α)
  | call {β : Type} (x : Symbol β) (depth : Nat) (goOn : β → Plan α)

/-- A call: the function, the number of levels of nesting left, and the tokens ahead. -/
structure Call where
  {Tree : Type}
  symbol : Symbol Tree
  depth : Nat
  ahead : List Token

namespace Plan

variable {α β : Type} {X Y : Readers}

/-- Goes on by another plan. -/
def bind (p : Plan α) (f : α → Plan β) : Plan β :=
  match p with
  | done a => f a
  | step r recedes goOn => step r recedes fun b => (goOn b).bind f
  | call x depth goOn => call x depth fun b => (goOn b).bind f

instance : Monad Plan where
  pure := done
  bind := bind

/-- Carries out a plan over rules for the functions that it calls. -/
def run (X : Readers) : Plan α → Rule α
  | done a => pure a
  | step r _ goOn => r >>= fun b => (goOn b).run X
  | call x depth goOn => X x depth >>= fun b => (goOn b).run X

/-- The calls that are made where a plan is carried out, in their order. -/
def calls (X : Readers) : Plan α → List Token → List Call
  | done _, _ => []
  | step r _ goOn, ts =>
    match r ts with
    | .ok b rest => (goOn b).calls X rest
    | .fail _ _ => []
  | call x depth goOn, ts =>
    ⟨x, depth, ts⟩ ::
      match X x depth ts with
      | .ok b rest => (goOn b).calls X rest
      | .fail _ _ => []

/-- One step. -/
def read (r : Rule α) (recedes : r.Recedes) : Plan α := step r recedes done

/-- One call. -/
def ask (x : Symbol α) (depth : Nat) : Plan α := call x depth done

/-- Looks at the tokens ahead. -/
def see (f : List Token → β) : Plan β := read (Rule.look f) (Rule.look_recedes f)

/-- Takes a mark. -/
def mark (p : Punct) (place : String) : Plan Token :=
  read (Rule.mark p place) (Rule.mark_shortsighted p place).recedes

/-- Takes a reserved word. -/
def word (k : Keyword) (place : String) : Plan Token :=
  read (Rule.word k place) (Rule.word_shortsighted k place).recedes

/-- Takes a name. -/
def name (what : String) : Plan (String × Span) :=
  read (Rule.name what) (Rule.name_shortsighted what).recedes

/-- A fault at the first token. -/
def fault (f : SyntaxFault) : Plan α := read (Rule.fault f) (Rule.fault_shortsighted f).recedes

/-- A fault at a token that has been taken already. -/
def faultAt (t : Token) (f : SyntaxFault) : Plan α :=
  read (Rule.faultAt t f) (Rule.faultAt_shortsighted t f).recedes

/-- The fault that something else was expected. -/
def expected (what : String) : Plan α :=
  read (Rule.expected what) (Rule.expected_shortsighted what).recedes

/-! ### Carrying out plans -/

/-- Carrying out a value. -/
@[simp] lemma run_pure (a : α) : (pure a : Plan α).run X = pure a := rfl

/-- Carrying out a rule. -/
@[simp] lemma run_read (r : Rule α) (recedes : r.Recedes) : (read r recedes).run X = r :=
  bind_pure r

/-- Carrying out a call. -/
@[simp] lemma run_ask (x : Symbol α) (depth : Nat) : (ask x depth).run X = X x depth :=
  bind_pure (X x depth)

/-- **Plans one after the other.** -/
@[simp] lemma run_bind (p : Plan α) (f : α → Plan β) :
    (p >>= f).run X = p.run X >>= fun a => (f a).run X := by
  show (p.bind f).run X = _
  induction p with
  | done a => rfl
  | step r recedes goOn ih => simp only [bind, run, ih, bind_assoc]
  | call x depth goOn ih => simp only [bind, run, ih, bind_assoc]

/-- Carrying out a choice. -/
lemma run_ite {c : Prop} [Decidable c] (p q : Plan α) :
    (if c then p else q).run X = if c then p.run X else q.run X := by
  split <;> rfl

/-- Carrying out a plan gives no tokens back, if the rules for its calls give none. -/
lemma run_recedes (hX : ∀ {γ : Type} (x : Symbol γ) (depth : Nat), (X x depth).Recedes)
    (p : Plan α) : (p.run X).Recedes := by
  induction p with
  | done a => exact (Rule.pure_shortsighted a).recedes
  | step r recedes goOn ih => exact recedes.bind ih
  | call x depth goOn ih => exact (hX x depth).bind ih

/-! ### Calls -/

/-- The calls behind a rule are made if it succeeds. -/
lemma calls_step (r : Rule β) (recedes : r.Recedes) (goOn : β → Plan α) {ts : List Token}
    {c : Call} : c ∈ (step r recedes goOn).calls X ts ↔
      ∃ b rest, r ts = .ok b rest ∧ c ∈ (goOn b).calls X rest := by
  rw [calls]
  cases r ts <;> simp

/-- A call, and the calls behind it if it succeeds. -/
lemma calls_call (x : Symbol β) (depth : Nat) (goOn : β → Plan α) {ts : List Token} {c : Call} :
    c ∈ (call x depth goOn).calls X ts ↔
      c = ⟨x, depth, ts⟩ ∨ ∃ b rest, X x depth ts = .ok b rest ∧ c ∈ (goOn b).calls X rest := by
  rw [calls, List.mem_cons]
  cases X x depth ts <;> simp

/-- The calls of plans one after the other: those of the first, and those of the second from where
the first one stops. -/
lemma mem_calls_bind (p : Plan α) (f : α → Plan β) {ts : List Token} {c : Call} :
    c ∈ (p >>= f).calls X ts ↔
      c ∈ p.calls X ts ∨ ∃ a rest, p.run X ts = .ok a rest ∧ c ∈ (f a).calls X rest := by
  show c ∈ (p.bind f).calls X ts ↔ _
  induction p generalizing ts with
  | done a => simp [bind, run, calls, Rule.pure_apply]
  | step r recedes goOn ih =>
    simp only [bind, run, calls_step, ih, Rule.bind_eq_ok]
    grind
  | call x depth goOn ih =>
    simp only [bind, run, calls_call, ih, Rule.bind_eq_ok]
    grind

/-- **A plan depends on its calls only**: over rules that give the same on all calls that are made,
it gives the same. -/
lemma run_congr (p : Plan α) {ts : List Token}
    (h : ∀ c ∈ p.calls Y ts, X c.symbol c.depth c.ahead = Y c.symbol c.depth c.ahead) :
    p.run X ts = p.run Y ts := by
  induction p generalizing ts with
  | done a => rfl
  | step r recedes goOn ih =>
    cases hr : r ts with
    | fail e rest => rw [run, run, Rule.bind_of_fail hr, Rule.bind_of_fail hr]
    | ok b rest =>
      rw [run, run, Rule.bind_of_ok hr, Rule.bind_of_ok hr]
      exact ih b fun c hc => h c ((calls_step ..).2 ⟨b, rest, hr, hc⟩)
  | call x depth goOn ih =>
    have hcall := h ⟨x, depth, ts⟩ ((calls_call ..).2 (.inl rfl))
    cases hr : Y x depth ts with
    | fail e rest => rw [run, run, Rule.bind_of_fail hr, Rule.bind_of_fail (hcall.trans hr)]
    | ok b rest =>
      rw [run, run, Rule.bind_of_ok hr, Rule.bind_of_ok (hcall.trans hr)]
      exact ih b fun c hc => h c ((calls_call ..).2 (.inr ⟨b, rest, hr, hc⟩))

end Plan

/-! ## The system of functions -/

open Plan

/-- Whether the token ahead is of the given kind. -/
def ahead (k : TokenKind) : Plan Bool := see fun ts => decide (peek ts = k)

section Expressions

variable (depth : Nat)

/-- What stands behind an opening parenthesis, which takes one level. -/
def groupPlan : Nat → Plan Expr
  | 0 => Plan.fault (.tooDeep .expression)
  | inner + 1 => do
    let e ← ask .expression inner
    let _ ← Plan.mark .rparen "after expression"
    pure e

/-- Literals, variables, and expressions in parentheses. -/
def primaryPlan : Plan Expr := do
  if ← ahead (.punct .lparen) then
    let _ ← Plan.mark .lparen ""
    groupPlan depth
  else
    read (primaryRule (Rule.fault (.tooDeep .expression)))
      (primaryRule_shortsighted (Rule.fault_shortsighted _)).recedes

/-- The next call or member access, and those behind it. -/
def suffixesPlan (e : Expr) : Plan Expr := do
  if ← ahead (.punct .lparen) then
    let _ ← Plan.mark .lparen ""
    let args ← ask .arguments depth
    let close ← Plan.mark .rparen "after arguments"
    ask (.suffixes (.call e args (e.span.merge close.span))) depth
  else if ← ahead (.punct .dot) then
    let _ ← Plan.mark .dot ""
    let property ← Plan.name "property name after '.'"
    ask (.suffixes (.member e property.1 (e.span.merge property.2))) depth
  else pure e

/-- Operands with or without an operator in front. -/
def prefixedPlan : Plan Expr := do
  if ← ahead (.keyword .not) then
    let sign ← Plan.word .not ""
    let e ← ask .operand depth
    pure (.unary .not e (sign.span.merge e.span))
  else if ← ahead (.punct .minus) then
    let sign ← Plan.mark .minus ""
    let e ← ask .operand depth
    pure (Expr.join .sub (.lit (.int 0) sign.span) e)
  else ask .suffixed depth

/-- The next operator of a level, the operand to its right, and those behind it. -/
def joinsPlan (level : Fin BinaryOp.loosest) (left : Expr) : Plan Expr := do
  let k ← see peek
  match binaryOp? k with
  | none => pure left
  | some op =>
    if op.level = level + 1 then
      let _ ← read (Rule.token k "") (Rule.token_shortsighted k "").recedes
      let right ← ask (.binary level.castSucc) depth
      ask (.joins level (Expr.join op left right)) depth
    else pure left

/-- Assignments, and expressions without one. -/
def expressionPlan : Plan Expr := do
  let target ← ask (.binary (Fin.last BinaryOp.loosest)) depth
  if ← ahead (.punct .assign) then
    let sign ← Plan.mark .assign ""
    match target with
    | .var name span =>
      let value ← ask .expression depth
      pure (.assign name value (span.merge value.span))
    | _ => Plan.faultAt sign (.notAssignable target.form)
  else pure target

/-- The arguments of a call. -/
def argumentsPlan : Plan (List Expr) := do
  if ← ahead (.punct .rparen) then pure []
  else
    let first ← ask .expression depth
    let others ← ask .moreArguments depth
    pure (first :: others)

/-- The next argument behind a comma, and those behind it. -/
def moreArgumentsPlan : Plan (List Expr) := do
  if ← ahead (.punct .comma) then
    let _ ← Plan.mark .comma ""
    let e ← ask .expression depth
    let others ← ask .moreArguments depth
    pure (e :: others)
  else pure []

end Expressions

section Statements

variable (depth : Nat)

/-- A block. -/
def blockPlan : Plan Block := do
  let opening ← Plan.mark .lbrace "to open a block"
  let inside ← ask .items depth
  pure ⟨inside.1, opening.span.merge inside.2.span⟩

/-- What stands next in a block, and what stands behind it. -/
def itemsPlan : Plan (List Stmt × Token) := do
  if ← see inBlock then
    let s ← ask .item depth
    let inside ← ask .items depth
    pure (s :: inside.1, inside.2)
  else
    let closing ← Plan.mark .rbrace "to close the block"
    pure ([], closing)

/-- The declaration of a variable. -/
def declarationPlan : Plan Stmt := do
  let type ← ask .type depth
  let n ← Plan.name "variable name"
  match type.1.default? with
  | none => Plan.faultAt type.2 (.voidVariable n.1)
  | some value =>
    let init ←
      if ← ahead (.punct .assign) then do
        let _ ← Plan.mark .assign ""
        ask .expression depth
      else pure (.lit value n.2)
    let semi ← Plan.mark .semi "after variable declaration"
    pure (.declare type.1 n.1 init (type.2.span.merge semi.span))

/-- A condition in parentheses. -/
def conditionPlan (place : String) : Plan Expr := do
  let _ ← Plan.mark .lparen place
  let condition ← ask .expression depth
  let _ ← Plan.mark .rparen "after condition"
  pure condition

/-- A conditional statement. -/
def ifPlan : Plan Stmt := do
  let start ← Plan.word .if_ ""
  let condition ← conditionPlan depth "after 'if'"
  let thenBranch ← ask .statement depth
  let span := start.span.merge thenBranch.span
  if ← ahead (.keyword .else_) then
    let _ ← Plan.word .else_ ""
    let elseBranch ← ask .statement depth
    pure (.ifElse condition thenBranch elseBranch (span.merge elseBranch.span))
  else pure (.ifThen condition thenBranch span)

/-- A loop. -/
def whilePlan : Plan Stmt := do
  let start ← Plan.word .while_ ""
  let condition ← conditionPlan depth "after 'while'"
  let body ← ask .statement depth
  pure (.while_ condition body (start.span.merge body.span))

/-- A return statement. -/
def returnPlan : Plan Stmt := do
  let start ← Plan.word .return_ ""
  let value ←
    if ← ahead (.punct .semi) then pure none
    else do
      let e ← ask .expression depth
      pure (some e)
  let semi ← Plan.mark .semi "after return"
  pure (.return_ value (start.span.merge semi.span))

/-- An expression that is evaluated for its effect. -/
def evalPlan : Plan Stmt := do
  let e ← ask .expression depth
  let semi ← Plan.mark .semi "after expression"
  pure (.eval e (e.span.merge semi.span))

/-- The forms of statements. -/
def formPlan : Plan Stmt := do
  if ← ahead (.keyword .if_) then ifPlan depth
  else if ← ahead (.keyword .while_) then whilePlan depth
  else if ← ahead (.keyword .return_) then returnPlan depth
  else if ← ahead (.punct .lbrace) then
    let b ← ask .block depth
    pure (.block b.body b.span)
  else evalPlan depth

/-- A declaration or a statement. -/
def itemPlan : Plan Stmt := do
  if ← see fun ts => (peek ts).isTypeName then ask .declaration depth
  else
    match ← see misspelledType? with
    | some n => Plan.fault (.unknownType n)
    | none => ask .statement depth

end Statements

section Files

variable (depth : Nat)

/-- The parameter of a function, if it has one. -/
def paramsPlan (function : String) : Plan (List Param) := do
  if ← ahead (.punct .rparen) then pure []
  else
    let type ← ask .type depth
    let n ← Plan.name "parameter name"
    if ← ahead (.punct .comma) then Plan.fault (.secondParameter function)
    else pure [⟨type.1, n.1, type.2.span.merge n.2⟩]

/-- A function. -/
def functionPlan : Plan Function := do
  let type ← ask .type depth
  let _ ← Plan.word .function "after return type"
  let n ← Plan.name "function name"
  let _ ← Plan.mark .lparen "after function name"
  let params ← paramsPlan depth n.1
  let _ ← Plan.mark .rparen "after parameters"
  let body ← ask .block maxDepth
  pure ⟨n.1, type.1, params, body, type.2.span.merge body.span⟩

/-- The function a program starts with. -/
def mainPlan : Plan Function := do
  let start ← Plan.word .main ""
  let _ ← Plan.mark .lparen "after 'main'"
  let _ ← Plan.mark .rparen "after '('"
  let body ← ask .block maxDepth
  pure ⟨"main", .void, [], body, start.span.merge body.span⟩

/-- A phrase where one starts, and those behind it. -/
def listPlan {α : Type} (starts : List Token → Bool) (one : Plan α) (others : Plan (List α)) :
    Plan (List α) := do
  if ← see starts then
    let a ← one
    let as ← others
    pure (a :: as)
  else pure []

/-- A program. -/
def programPlan (file : String) : Plan Program := do
  let imports ← ask .imports depth
  let functions ← ask .functions depth
  if ← ahead (.keyword .main) then
    let main ← ask .main depth
    if ← ahead .endOfFile then pure ⟨imports, functions, main, file⟩
    else Plan.expected "end of file after main()"
  else Plan.expected "'main' function"

/-- What may stand in a library. -/
def libraryItemPlan : Plan (Option Function) := do
  if ← see importAhead then
    let _ ← ask .import_ depth
    pure none
  else if ← see functionAhead then
    let f ← ask .function depth
    pure (some f)
  else
    let k ← see peek
    Plan.fault (.notInLibrary k)

/-- The functions of a library. -/
def libraryPlan : Plan (List Function) := do
  let items ← ask .libraryItems depth
  pure (items.filterMap id)

end Files

/-- What each function does. -/
def plan {α : Type} : Symbol α → Nat → Plan α
  | .primary, depth => primaryPlan depth
  | .suffixes e, depth => suffixesPlan depth e
  | .suffixed, depth => do
    let e ← ask .primary depth
    ask (.suffixes e) depth
  | .prefixed, depth => prefixedPlan depth
  | .operand, 0 => Plan.fault (.tooDeep .expression)
  | .operand, depth + 1 => ask .prefixed depth
  | .joins level left, depth => joinsPlan depth level left
  | .binary level, depth =>
    level.cases (ask .operand depth) fun below => do
      let left ← ask (.binary below.castSucc) depth
      ask (.joins below left) depth
  | .expression, depth => expressionPlan depth
  | .arguments, depth => argumentsPlan depth
  | .moreArguments, depth => moreArgumentsPlan depth
  | .block, depth => blockPlan depth
  | .items, depth => itemsPlan depth
  | .declaration, depth => declarationPlan depth
  | .form, depth => formPlan depth
  | .statement, 0 => Plan.fault (.tooDeep .statement)
  | .statement, depth + 1 => ask .form depth
  | .item, depth => itemPlan depth
  | .type, _ => read typeRule typeRule_shortsighted.recedes
  | .import_, _ => read importRule importRule_shortsighted.recedes
  | .function, depth => functionPlan depth
  | .main, _ => mainPlan
  | .imports, depth => listPlan importAhead (ask .import_ depth) (ask .imports depth)
  | .functions, depth => listPlan functionAhead (ask .function depth) (ask .functions depth)
  | .program file, depth => programPlan depth file
  | .libraryItem, depth => libraryItemPlan depth
  | .libraryItems, depth =>
    listPlan (fun ts => decide (peek ts ≠ .endOfFile)) (ask .libraryItem depth)
      (ask .libraryItems depth)
  | .library, depth => libraryPlan depth

/-- What a function gives if the functions that it calls give what `X` gives. -/
def unroll (X : Readers) : Readers := fun _ x depth => (plan x depth).run X

end Grammar

end Idyl
