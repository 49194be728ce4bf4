import Mathlib
import Idyl.Proofs.Paths
import Idyl.Proofs.Recursion.Induction
import Idyl.Proofs.Compile.Results
import Idyl.Proofs.Printing.Reparse
import Idyl.Proofs.Token.Tiling

/-!
# How the nodes of a tree lie in the text

Tokens of a text follow each other and are not empty.  So do the nodes that are read from them: a
node reaches from the start of a token to the end of one, its parts lie inside it, one behind the
other.  Parentheses are no part of any node, the zero of a negated operand lies on the minus sign,
and the value of a variable declared without one on its name.

## Main definitions

* `Idyl.Node.Lies`, `Idyl.Node.WellSet` — a node that lies as it should, and one all of whose nodes
  do.
* `Idyl.Laid` — tokens that follow each other.
* `Idyl.Program.parts` — the imports and functions of a program.
* `Idyl.Chain`, `Idyl.Row` — nodes that follow each other, up to a byte or up to some tokens.

## Main results

* `Idyl.Grammar.ruleOf_row` — nodes are read in rows.
* `Idyl.parseProgram_wellSet` — all nodes of a program lie as they should.
-/

set_option autoImplicit false

namespace Idyl

/-! ## Nodes in a text -/

/-- A span that starts where a token does, at the same line and column. -/
def Span.Starts (tokens : List Token) (s : Span) : Prop :=
  ∃ t ∈ tokens, t.span.start = s.start ∧ t.span.line = s.line ∧ t.span.column = s.column

/-- A span that ends where a token does. -/
def Span.Stops (tokens : List Token) (s : Span) : Prop := ∃ t ∈ tokens, t.span.stop = s.stop

/-- A token starts where it does. -/
lemma Span.starts_token {tokens : List Token} {t : Token} (ht : t ∈ tokens) :
    t.span.Starts tokens :=
  ⟨t, ht, rfl, rfl, rfl⟩

/-- A token ends where it does. -/
lemma Span.stops_token {tokens : List Token} {t : Token} (ht : t ∈ tokens) :
    t.span.Stops tokens :=
  ⟨t, ht, rfl⟩

namespace Node

/-- The text a node was read from. -/
def span : Node → Span
  | import_ i => i.span
  | function f => f.span
  | param p => p.span
  | block b => b.span
  | stmt s => s.span
  | expr e => e.span

/-- A node that lies as it should among the tokens of its text: it is not empty, it starts where a
token does and ends where a token does, its parts lie inside it, and they follow each other. -/
structure Lies (tokens : List Token) (x : Node) : Prop where
  nonempty : x.span.start < x.span.stop
  starts : x.span.Starts tokens
  stops : x.span.Stops tokens
  inside : ∀ y ∈ x.children, x.span.start ≤ y.span.start ∧ y.span.stop ≤ x.span.stop
  ordered : x.children.Pairwise fun y z => y.span.stop ≤ z.span.start

/-- A node that lies as it should, as do all nodes below it. -/
def WellSet (tokens : List Token) (x : Node) : Prop :=
  ∀ ⦃ls y⦄, Path x ls y → y.Lies tokens

/-- A node that is well set with all below it lies as it should. -/
lemma WellSet.lies {tokens : List Token} {x : Node} (h : x.WellSet tokens) : x.Lies tokens :=
  h (.nil x)

end Node

variable {tokens : List Token} {m n : Nat}

/-- Tokens that follow each other from a byte on, none of them empty. -/
def Laid (tokens : List Token) : Nat → List Token → Prop
  | _, [] => True
  | n, t :: ts =>
    t ∈ tokens ∧ n ≤ t.span.start ∧ t.span.start < t.span.stop ∧ Laid tokens t.span.stop ts

/-- Tokens that follow each other from a byte on do so from an earlier one. -/
lemma Laid.mono {ts : List Token} (h : Laid tokens n ts) (hle : m ≤ n) : Laid tokens m ts := by
  cases ts with
  | nil => exact trivial
  | cons t ts => exact ⟨h.1, hle.trans h.2.1, h.2.2⟩

/-- Nodes that follow each other between two bytes, each of them with all below it as it should. -/
def Chain (tokens : List Token) : Nat → List Node → Nat → Prop
  | m, [], n => m ≤ n
  | m, x :: xs, n => m ≤ x.span.start ∧ x.WellSet tokens ∧ Chain tokens x.span.stop xs n

namespace Chain

variable {xs ys : List Node} {l k : Nat}

/-- A chain does not lead backwards. -/
lemma le (h : Chain tokens m xs n) : m ≤ n := by
  induction xs generalizing m with
  | nil => exact h
  | cons x xs ih =>
    obtain ⟨hle, hset, htail⟩ := h
    exact hle.trans (hset.lies.nonempty.le.trans (ih htail))

/-- A chain without nodes. -/
lemma nil (h : m ≤ n) : Chain tokens m [] n := h

/-- A chain that starts with an expression. -/
lemma expr {e : Expr} (hle : m ≤ e.span.start) (hset : (Node.expr e).WellSet tokens)
    (htail : Chain tokens e.span.stop xs n) : Chain tokens m (.expr e :: xs) n := ⟨hle, hset, htail⟩

/-- A chain that starts with a statement. -/
lemma stmt {s : Stmt} (hle : m ≤ s.span.start) (hset : (Node.stmt s).WellSet tokens)
    (htail : Chain tokens s.span.stop xs n) : Chain tokens m (.stmt s :: xs) n := ⟨hle, hset, htail⟩

/-- A chain that starts with a block. -/
lemma block {b : Block} (hle : m ≤ b.span.start) (hset : (Node.block b).WellSet tokens)
    (htail : Chain tokens b.span.stop xs n) : Chain tokens m (.block b :: xs) n :=
  ⟨hle, hset, htail⟩

/-- A chain between wider ends. -/
lemma mono (h : Chain tokens m xs n) (hl : l ≤ m) (hk : n ≤ k) : Chain tokens l xs k := by
  induction xs generalizing l m with
  | nil => exact hl.trans (le_trans h hk)
  | cons x xs ih =>
    obtain ⟨hle, hset, htail⟩ := h
    exact ⟨hl.trans hle, hset, ih htail le_rfl⟩

/-- Two chains, one behind the other. -/
lemma append (hx : Chain tokens l xs m) (hy : Chain tokens m ys n) :
    Chain tokens l (xs ++ ys) n := by
  induction xs generalizing l with
  | nil => exact hy.mono hx le_rfl
  | cons x xs ih =>
    obtain ⟨hle, hset, htail⟩ := hx
    exact ⟨hle, hset, ih htail⟩

/-- The nodes of a chain lie between its ends. -/
lemma inside (h : Chain tokens m xs n) :
    ∀ x ∈ xs, m ≤ x.span.start ∧ x.span.stop ≤ n ∧ x.WellSet tokens := by
  induction xs generalizing m with
  | nil => simp
  | cons x xs ih =>
    obtain ⟨hle, hset, htail⟩ := h
    refine List.forall_mem_cons.2 ⟨⟨hle, htail.le, hset⟩, fun y hy => ?_⟩
    obtain ⟨hstart, hrest⟩ := ih htail y hy
    exact ⟨hle.trans (hset.lies.nonempty.le.trans hstart), hrest⟩

/-- The nodes of a chain follow each other. -/
lemma ordered (h : Chain tokens m xs n) :
    xs.Pairwise fun x y => x.span.stop ≤ y.span.start := by
  induction xs generalizing m with
  | nil => exact .nil
  | cons x xs ih =>
    obtain ⟨-, -, htail⟩ := h
    exact .cons (fun y hy => (htail.inside y hy).1) (ih htail)

end Chain

/-- Nodes that follow each other from a byte on, and then tokens that follow each other. -/
def Row (tokens : List Token) (n : Nat) (xs : List Node) (ts : List Token) : Prop :=
  ∃ m, Chain tokens n xs m ∧ Laid tokens m ts

namespace Row

variable {x : Node} {xs ys : List Node} {ts : List Token} {t : Token}

/-- A row without nodes. -/
@[simp] lemma nil_iff : Row tokens n [] ts ↔ Laid tokens n ts := by
  constructor
  · rintro ⟨m, hle, hlaid⟩
    exact hlaid.mono hle
  · intro h
    exact ⟨n, le_rfl, h⟩

/-- A row with a first node. -/
lemma cons_iff : Row tokens n (x :: xs) ts ↔
    n ≤ x.span.start ∧ x.WellSet tokens ∧ Row tokens x.span.stop xs ts := by
  constructor
  · rintro ⟨m, ⟨hle, hset, hchain⟩, hlaid⟩
    exact ⟨hle, hset, m, hchain, hlaid⟩
  · rintro ⟨hle, hset, m, hchain, hlaid⟩
    exact ⟨m, ⟨hle, hset, hchain⟩, hlaid⟩

/-- A row with one node. -/
lemma single_iff : Row tokens n [x] ts ↔
    n ≤ x.span.start ∧ x.WellSet tokens ∧ Laid tokens x.span.stop ts := by
  rw [cons_iff, nil_iff]

/-- A row with one expression. -/
lemma expr_iff {e : Expr} : Row tokens n [.expr e] ts ↔
    n ≤ e.span.start ∧ (Node.expr e).WellSet tokens ∧ Laid tokens e.span.stop ts := single_iff

/-- Behind a row, tokens follow each other from its start on. -/
lemma laid (h : Row tokens n xs ts) : Laid tokens n ts := by
  obtain ⟨m, hchain, hlaid⟩ := h
  exact hlaid.mono hchain.le

/-- Nodes up to a token. -/
lemma chain (h : Row tokens n xs (t :: ts)) : Chain tokens n xs t.span.start := by
  obtain ⟨m, hchain, hlaid⟩ := h
  exact hchain.mono le_rfl hlaid.2.1

end Row

/-! ## Setting nodes -/

/-- Two spans in order are merged from the start of the one to the end of the other. -/
lemma Span.merge_of_le {s t : Span} (hstart : s.start ≤ t.start) (hstop : s.stop ≤ t.stop) :
    s.merge t = { s with stop := t.stop } := by
  simp [Span.merge, Nat.not_lt.2 hstart, Nat.min_eq_left hstart, Nat.max_eq_right hstop]

namespace Node

variable {x : Node}

/-- A node is well set if its parts are a chain inside it. -/
lemma wellSet_of_chain (hlt : x.span.start < x.span.stop) (hstarts : x.span.Starts tokens)
    (hstops : x.span.Stops tokens)
    (h : Chain tokens x.span.start x.children x.span.stop) : x.WellSet tokens := by
  intro ls y hpath
  cases hpath with
  | nil =>
    exact ⟨hlt, hstarts, hstops, fun y hy => ⟨(h.inside y hy).1, (h.inside y hy).2.1⟩, h.ordered⟩
  | cons hmem htail => exact (h.inside _ (List.mem_map_of_mem hmem)).2.2 htail

/-- A node that was read from one token. -/
lemma wellSet_of_token {t : Token} (ht : t ∈ tokens) (hlt : t.span.start < t.span.stop)
    (hspan : x.span = t.span) (hchildren : x.children = []) : x.WellSet tokens := by
  refine wellSet_of_chain ?_ ?_ ?_ ?_
  · rw [hspan]
    exact hlt
  · rw [hspan]
    exact Span.starts_token ht
  · rw [hspan]
    exact Span.stops_token ht
  · rw [hchildren, hspan]
    exact hlt.le

end Node

/-- **A node between two spans.**  It reaches from the start of the first to the end of the last
one, and its parts lie between these. -/
lemma Row.node {x : Node} {s t : Span} {rest : List Token} (hspan : x.span = s.merge t)
    (hstarts : s.Starts tokens) (hstops : t.Stops tokens) (hn : n ≤ s.start)
    (hstart : s.start ≤ t.start) (hstop : s.stop ≤ t.stop) (hlt : t.start < t.stop)
    (hchain : Chain tokens s.start x.children t.stop) (hrest : Laid tokens t.stop rest) :
    Row tokens n [x] rest := by
  rw [Span.merge_of_le hstart hstop] at hspan
  rw [Row.single_iff, hspan]
  refine ⟨hn, Node.wellSet_of_chain ?_ ?_ ?_ ?_, hrest⟩
  all_goals rw [hspan]
  · exact Nat.lt_of_le_of_lt hstart hlt
  · exact hstarts
  · exact hstops
  · exact hchain

/-- The parts of a program in the order of the text. -/
def Program.parts (p : Program) : List Node :=
  p.imports.map .import_ ++ (p.functions.map .function ++ [.function p.main])

namespace Grammar

open Plan

/-! ## Reading rows -/

namespace Symbol

/-- What a function was given that has been read already. -/
def given {α : Type} : Symbol α → List Node
  | suffixes e | joins _ e => [.expr e]
  | _ => []

/-- The nodes that a function gives. -/
def nodes {α : Type} : Symbol α → α → List Node
  | primary, e | suffixes _, e | suffixed, e | prefixed, e | operand, e | joins _ _, e
  | binary _, e | expression, e => [.expr e]
  | arguments, es | moreArguments, es => es.map .expr
  | block, b => [.block b]
  | items, inside => inside.1.map .stmt
  | declaration, s | form, s | statement, s | item, s => [.stmt s]
  | type, _ => []
  | import_, i => [.import_ i]
  | function, f | main, f => [.function f]
  | imports, is => is.map .import_
  | functions, fs | library, fs => fs.map .function
  | program _, p => p.parts
  | libraryItem, f => f.toList.map .function
  | libraryItems, fs => (fs.filterMap id).map .function

/-- The last token that a function has taken, if it gives it. -/
def kept {α : Type} : Symbol α → α → List Token
  | items, inside => [inside.2]
  | type, t => [t.2]
  | _, _ => []

/-- A function that is given nothing and gives one expression. -/
def Alone (x : Symbol Expr) : Prop :=
  x.given = [] ∧ ∀ e, x.nodes e = [.expr e] ∧ x.kept e = []

/-- A primary phrase is one expression. -/
lemma alone_primary : primary.Alone := ⟨rfl, fun _ => ⟨rfl, rfl⟩⟩

/-- An operand is one expression. -/
lemma alone_operand : operand.Alone := ⟨rfl, fun _ => ⟨rfl, rfl⟩⟩

/-- What stands on a level of operators is one expression. -/
lemma alone_binary (level : Fin (BinaryOp.loosest + 1)) : (binary level).Alone :=
  ⟨rfl, fun _ => ⟨rfl, rfl⟩⟩

/-- So is an expression. -/
lemma alone_expression : expression.Alone := ⟨rfl, fun _ => ⟨rfl, rfl⟩⟩

end Symbol

/-- What a function gives continues a row, if what it was given does. -/
def Extends {α : Type} (tokens : List Token) (x : Symbol α) (ts : List Token) (a : α)
    (rest : List Token) : Prop :=
  ∀ ⦃n⦄, Row tokens n x.given ts → Row tokens n (x.nodes a) (x.kept a ++ rest)

section Steps

variable {α β : Type} {X : Readers} {ts : List Token} {Q : β → List Token → Prop}

/-- Taking a mark goes on behind it. -/
lemma laid_mark {p : Punct} {place : String} {f : Token → Plan β} (h : Laid tokens n ts)
    (hf : ∀ t rest, t ∈ tokens → n ≤ t.span.start → t.span.start < t.span.stop →
      Laid tokens t.span.stop rest → Ensures X rest (f t) Q) :
    Ensures X ts (Plan.mark p place >>= f) Q := by
  refine ensures_mark fun t rest hts => ?_
  subst hts
  exact hf t rest h.1 h.2.1 h.2.2.1 h.2.2.2

/-- Taking a word goes on behind it. -/
lemma laid_word {k : Keyword} {place : String} {f : Token → Plan β} (h : Laid tokens n ts)
    (hf : ∀ t rest, t ∈ tokens → n ≤ t.span.start → t.span.start < t.span.stop →
      Laid tokens t.span.stop rest → Ensures X rest (f t) Q) :
    Ensures X ts (Plan.word k place >>= f) Q := by
  refine ensures_word fun t rest hts => ?_
  subst hts
  exact hf t rest h.1 h.2.1 h.2.2.1 h.2.2.2

/-- Taking a name goes on behind it. -/
lemma laid_name {what : String} {f : String × Span → Plan β} (h : Laid tokens n ts)
    (hf : ∀ name t rest, t ∈ tokens → n ≤ t.span.start → t.span.start < t.span.stop →
      Laid tokens t.span.stop rest → Ensures X rest (f (name, t.span)) Q) :
    Ensures X ts (Plan.name what >>= f) Q := by
  refine ensures_name fun name t rest hts => ?_
  subst hts
  exact hf name t rest h.1 h.2.1 h.2.2.1 h.2.2.2

/-- All that is read by the rules continues rows. -/
def Continues (tokens : List Token) (X : Readers) : Prop :=
  ∀ ⦃γ : Type⦄ (x : Symbol γ) (depth : Nat) ⦃ts a rest⦄,
    X x depth ts = .ok a rest → Extends tokens x ts a rest

variable {x : Symbol α} {depth : Nat}

/-- A call continues the row. -/
lemma row_ask (hX : Continues tokens X) (h : Row tokens n x.given ts) :
    Ensures X ts (ask x depth) fun a rest => Row tokens n (x.nodes a) (x.kept a ++ rest) :=
  ensures_ask fun _ _ hr => hX x depth hr h

/-- A call continues the row for what follows. -/
lemma row_call {f : α → Plan β} (hX : Continues tokens X) (h : Row tokens n x.given ts)
    (hf : ∀ a rest, Row tokens n (x.nodes a) (x.kept a ++ rest) → Ensures X rest (f a) Q) :
    Ensures X ts (ask x depth >>= f) Q :=
  ensures_bind (ensures_ask fun a rest hr => hf a rest (hX x depth hr h))

/-- A call for one expression goes on behind it. -/
lemma laid_expr {y : Symbol Expr} {f : Expr → Plan β} (hX : Continues tokens X)
    (hy : y.Alone) (h : Laid tokens n ts)
    (hf : ∀ e rest, n ≤ e.span.start → (Node.expr e).WellSet tokens →
      e.span.start < e.span.stop → Laid tokens e.span.stop rest → Ensures X rest (f e) Q) :
    Ensures X ts (ask y depth >>= f) Q := by
  refine row_call (n := n) hX (by rw [hy.1, Row.nil_iff]; exact h) fun e rest hrow => ?_
  rw [(hy.2 e).1, (hy.2 e).2] at hrow
  obtain ⟨hle, hset, hlaid⟩ := Row.single_iff.1 hrow
  exact hf e rest hle hset hset.lies.nonempty hlaid

/-- A call for a statement goes on behind it. -/
lemma laid_stmt {f : Stmt → Plan β} (hX : Continues tokens X) (h : Laid tokens n ts)
    (hf : ∀ s rest, n ≤ s.span.start → (Node.stmt s).WellSet tokens →
      s.span.start < s.span.stop → Laid tokens s.span.stop rest → Ensures X rest (f s) Q) :
    Ensures X ts (ask .statement depth >>= f) Q := by
  refine row_call hX (Row.nil_iff.2 h) fun s rest hrow => ?_
  obtain ⟨hle, hset, hlaid⟩ := Row.single_iff.1 hrow
  exact hf s rest hle hset hset.lies.nonempty hlaid

/-- A call for a block goes on behind it. -/
lemma laid_block {f : Block → Plan β} (hX : Continues tokens X) (h : Laid tokens n ts)
    (hf : ∀ b rest, n ≤ b.span.start → (Node.block b).WellSet tokens →
      b.span.start < b.span.stop → Laid tokens b.span.stop rest → Ensures X rest (f b) Q) :
    Ensures X ts (ask .block depth >>= f) Q := by
  refine row_call hX (Row.nil_iff.2 h) fun b rest hrow => ?_
  obtain ⟨hle, hset, hlaid⟩ := Row.single_iff.1 hrow
  exact hf b rest hle hset hset.lies.nonempty hlaid

/-- A call for a type goes on behind its token. -/
lemma laid_type {f : Ty × Token → Plan β} (hX : Continues tokens X) (h : Laid tokens n ts)
    (hf : ∀ type t rest, t ∈ tokens → n ≤ t.span.start → t.span.start < t.span.stop →
      Laid tokens t.span.stop rest → Ensures X rest (f (type, t)) Q) :
    Ensures X ts (ask .type depth >>= f) Q := by
  refine row_call hX (Row.nil_iff.2 h) fun type rest hrow => ?_
  obtain ⟨hmem, hle, hlt, hlaid⟩ := Row.nil_iff.1 hrow
  exact hf type.1 type.2 rest hmem hle hlt hlaid

end Steps

/-! ## Expressions -/

section Expressions

variable {X : Readers} {ts : List Token} {depth : Nat}

/-- A literal has the span of its token. -/
lemma wellSet_literal {t : Token} (ht : t ∈ tokens) (hlt : t.span.start < t.span.stop)
    (value : Literal) : (Node.expr (.lit value t.span)).WellSet tokens :=
  Node.wellSet_of_token ht hlt rfl rfl

/-- An expression that is no group is read from one token. -/
lemma primaryRule_token {rest : List Token} {e : Expr} {f : SyntaxFault}
    (h : primaryRule (Rule.fault f) ts = .ok e rest) :
    ∃ t, ts = t :: rest ∧ e.span = t.span ∧ (Node.expr e).children = [] := by
  cases ts with
  | nil => cases h
  | cons t us =>
    refine ⟨t, ?_⟩
    rw [primaryRule] at h
    cases hk : t.kind with
    | integer text =>
      simp only [hk] at h
      split at h
      · obtain ⟨rfl, rfl⟩ := Reply.ok.inj h
        exact ⟨rfl, rfl, rfl⟩
      · cases h
    | float text =>
      simp only [hk] at h
      split at h
      · obtain ⟨rfl, rfl⟩ := Reply.ok.inj h
        exact ⟨rfl, rfl, rfl⟩
      · cases h
    | string value | char value | identifier name =>
      rw [hk] at h
      obtain ⟨rfl, rfl⟩ := Reply.ok.inj h
      exact ⟨rfl, rfl, rfl⟩
    | keyword w =>
      cases w <;> rw [hk] at h <;> first
        | cases h; done
        | obtain ⟨rfl, rfl⟩ := Reply.ok.inj h
          exact ⟨rfl, rfl, rfl⟩
    | punct p =>
      cases p <;> rw [hk] at h <;> cases h
    | endOfFile =>
      rw [hk] at h
      cases h

/-- Literals, names and groups; parentheses leave no trace. -/
lemma primary_row (hX : Continues tokens X) (h : Laid tokens n ts) :
    Ensures X ts (primaryPlan depth) fun e rest => Row tokens n [.expr e] rest := by
  refine ensures_see (.ite ?_ (ensures_read fun e rest hr => ?_))
  · refine laid_mark h fun opening ts hopening hle hlt hlaid => ?_
    cases depth with
    | zero => exact ensures_fault
    | succ inner =>
      refine laid_expr hX Symbol.alone_expression hlaid fun e ts hstart hset hpos hlaid => ?_
      refine laid_mark hlaid fun closing ts _ _ _ hlaid => ensures_pure ?_
      -- the parentheses are left out, so the node ends before the token that was taken last
      exact Row.expr_iff.2 ⟨by omega, hset, hlaid.mono (by omega)⟩
  · obtain ⟨t, rfl, hspan, hchildren⟩ := primaryRule_token hr
    obtain ⟨hmem, hle, hlt, hlaid⟩ := h
    have hset : (Node.expr e).WellSet tokens := Node.wellSet_of_token hmem hlt hspan hchildren
    rw [Row.expr_iff, hspan]
    exact ⟨hle, hset, hlaid⟩

/-- The parts of a call. -/
lemma children_call (e : Expr) (args : List Expr) (s : Span) :
    (Node.expr (.call e args s)).children = .expr e :: args.map .expr := by
  simp [Node.children, Node.links, Node.exprLinks]

/-- Behind a node that starts a row, a call or a member access makes a larger one. -/
lemma suffixes_row {e : Expr} (hX : Continues tokens X) (h : Row tokens n [.expr e] ts) :
    Ensures X ts (suffixesPlan depth e) fun e rest => Row tokens n [.expr e] rest := by
  obtain ⟨hn, hset, hlaid⟩ := Row.expr_iff.1 h
  have hpos : e.span.start < e.span.stop := hset.lies.nonempty
  have hstarts : e.span.Starts tokens := hset.lies.starts
  refine ensures_see (.ite ?_ (ensures_see (.ite ?_ (ensures_pure h))))
  · refine laid_mark hlaid fun opening ts _ hle hlt hlaid => ?_
    refine row_call hX (Row.nil_iff.2 hlaid) fun args ts hargs => ?_
    refine ensures_mark fun closing ts hts => ?_
    subst hts
    obtain ⟨hmem, hle', hlt', hlaid⟩ := hargs.laid
    refine row_ask (x := .suffixes _) hX ?_
    refine Row.node rfl hstarts (Span.stops_token hmem) hn (by omega) (by omega) hlt' ?_ hlaid
    rw [children_call]
    exact .expr le_rfl hset (hargs.chain.mono (by omega) (by omega))
  · refine laid_mark hlaid fun dot ts _ hle hlt hlaid => ?_
    refine laid_name hlaid fun name t ts hmem hle' hlt' hlaid => ?_
    refine row_ask (x := .suffixes _) hX ?_
    exact Row.node (t := t.span) rfl hstarts (Span.stops_token hmem) hn (by omega) (by omega) hlt'
      (.expr le_rfl hset (.nil (by omega))) hlaid

/-- An operator in front and its operand. -/
lemma prefixed_row (hX : Continues tokens X) (h : Laid tokens n ts) :
    Ensures X ts (prefixedPlan depth) fun e rest => Row tokens n [.expr e] rest := by
  refine ensures_see (.ite ?_ (ensures_see (.ite ?_ ?_)))
  · refine laid_word h fun sign ts hsign hle hlt hlaid => ?_
    refine laid_expr hX Symbol.alone_operand hlaid
      fun e ts hstart hset hpos hlaid => ensures_pure ?_
    exact Row.node rfl (Span.starts_token hsign) hset.lies.stops hle (by omega) (by omega) hpos
      (.expr (by omega) hset (.nil le_rfl)) hlaid
  · refine laid_mark h fun sign ts hsign hle hlt hlaid => ?_
    refine laid_expr hX Symbol.alone_operand hlaid
      fun e ts hstart hset hpos hlaid => ensures_pure ?_
    -- the zero lies on the sign
    exact Row.node (s := sign.span) rfl (Span.starts_token hsign) hset.lies.stops hle (by omega)
      (by omega) hpos
      (.expr le_rfl (wellSet_literal hsign hlt _) (.expr hstart hset (.nil le_rfl))) hlaid
  · exact row_ask (x := .suffixed) hX (Row.nil_iff.2 h)

/-- Behind a node that starts a row, an operator and its right operand make a larger one. -/
lemma joins_row {level : Fin BinaryOp.loosest} {left : Expr} (hX : Continues tokens X)
    (h : Row tokens n [.expr left] ts) :
    Ensures X ts (joinsPlan depth level left) fun e rest => Row tokens n [.expr e] rest := by
  obtain ⟨hn, hset, hlaid⟩ := Row.expr_iff.1 h
  have hpos : left.span.start < left.span.stop := hset.lies.nonempty
  refine ensures_see ?_
  cases binaryOp? (peek ts) with
  | none => exact ensures_pure h
  | some op =>
    refine .ite (ensures_bind (ensures_read fun sign ts hsign => ?_)) (ensures_pure h)
    obtain ⟨rfl, -⟩ := Rule.token_eq_ok.1 hsign
    obtain ⟨-, hle, hlt, hlaid⟩ := hlaid
    refine laid_expr hX (Symbol.alone_binary _) hlaid fun right ts hstart hset' hpos' hlaid => ?_
    refine row_ask (x := .joins level _) hX ?_
    exact Row.node rfl hset.lies.starts hset'.lies.stops hn (by omega) (by omega) hpos'
      (.expr le_rfl hset (.expr (by omega) hset' (.nil le_rfl))) hlaid

/-- Assignments and all other expressions. -/
lemma expression_row (hX : Continues tokens X) (h : Laid tokens n ts) :
    Ensures X ts (expressionPlan depth) fun e rest => Row tokens n [.expr e] rest := by
  refine laid_expr hX (Symbol.alone_binary _) h fun target ts hstart hset hpos hlaid => ?_
  refine ensures_see (.ite ?_ (ensures_pure (Row.expr_iff.2 ⟨hstart, hset, hlaid⟩)))
  refine laid_mark hlaid fun sign ts _ hle hlt hsign => ?_
  cases target with
  | var name s =>
    refine laid_expr hX Symbol.alone_expression hsign
      fun value ts hstart' hset' hpos' hlaid => ensures_pure ?_
    have hstarts : s.Starts tokens := hset.lies.starts
    simp only [Expr.span] at hstart hpos hle
    exact Row.node rfl hstarts hset'.lies.stops hstart (by omega) (by omega) hpos'
      (.expr (by omega) hset' (.nil le_rfl)) hlaid
  | _ => exact ensures_faultAt

/-- Arguments follow each other. -/
lemma arguments_row (hX : Continues tokens X) (h : Laid tokens n ts) :
    Ensures X ts (argumentsPlan depth) fun es rest => Row tokens n (es.map .expr) rest := by
  refine ensures_see (.ite (ensures_pure (Row.nil_iff.2 h)) ?_)
  refine laid_expr hX Symbol.alone_expression h fun e ts hstart hset hpos hlaid => ?_
  refine row_call hX (Row.nil_iff.2 hlaid) fun others ts hothers => ensures_pure ?_
  exact Row.cons_iff.2 ⟨hstart, hset, hothers⟩

/-- Arguments behind commas follow each other. -/
lemma moreArguments_row (hX : Continues tokens X) (h : Laid tokens n ts) :
    Ensures X ts (moreArgumentsPlan depth) fun es rest => Row tokens n (es.map .expr) rest := by
  refine ensures_see (.ite ?_ (ensures_pure (Row.nil_iff.2 h)))
  refine laid_mark h fun comma ts _ hle hlt hlaid => ?_
  refine laid_expr hX Symbol.alone_expression hlaid fun e ts hstart hset hpos hlaid => ?_
  refine row_call hX (Row.nil_iff.2 hlaid) fun others ts hothers => ensures_pure ?_
  exact Row.cons_iff.2 ⟨show n ≤ e.span.start by omega, hset, hothers⟩

end Expressions

/-! ## Statements -/

section Statements

variable {X : Readers} {ts : List Token} {depth : Nat}

/-- The parts of a block. -/
lemma children_block (body : List Stmt) (s : Span) :
    (Node.block ⟨body, s⟩).children = body.map .stmt := by
  simp [Node.children, Node.links]

/-- A block reaches from brace to brace. -/
lemma block_row (hX : Continues tokens X) (h : Laid tokens n ts) :
    Ensures X ts (blockPlan depth) fun b rest => Row tokens n [.block b] rest := by
  refine laid_mark h fun opening ts hopening hle hlt hlaid => ?_
  refine row_call (x := .items) hX (Row.nil_iff.2 hlaid) fun inside ts hinside => ensures_pure ?_
  obtain ⟨hmem, hle', hlt', hlaid⟩ := hinside.laid
  refine Row.node rfl (Span.starts_token hopening) (Span.stops_token hmem) hle (by omega) (by omega)
    hlt' ?_ hlaid
  rw [children_block]
  exact hinside.chain.mono (by omega) (by omega)

/-- What stands in a block, and its closing brace. -/
lemma items_row (hX : Continues tokens X) (h : Laid tokens n ts) :
    Ensures X ts (itemsPlan depth) fun inside rest =>
      Row tokens n (inside.1.map .stmt) (inside.2 :: rest) := by
  refine ensures_see (.ite ?_ ?_)
  · refine row_call (x := .item) hX (Row.nil_iff.2 h) fun s ts hs => ?_
    obtain ⟨hstart, hset, hlaid⟩ := Row.single_iff.1 hs
    refine row_call (x := .items) hX (Row.nil_iff.2 hlaid) fun inside ts hinside => ensures_pure ?_
    exact Row.cons_iff.2 ⟨hstart, hset, hinside⟩
  · refine laid_mark h fun closing ts hmem hle hlt hlaid => ensures_pure ?_
    exact Row.nil_iff.2 ⟨hmem, hle, hlt, hlaid⟩

/-- A declaration reaches from its type to the semicolon. -/
lemma declaration_row (hX : Continues tokens X) (h : Laid tokens n ts) :
    Ensures X ts (declarationPlan depth) fun s rest => Row tokens n [.stmt s] rest := by
  refine laid_type hX h fun type start ts hmem hle hlt hlaid => ?_
  refine laid_name hlaid fun name t ts ht hle' hlt' hlaid => ?_
  dsimp only
  cases type.default? with
  | none => exact ensures_faultAt
  | some value =>
    have hend : ∀ init ts, Row tokens start.span.stop [.expr init] ts → Ensures X ts
        (do
          let semi ← Plan.mark .semi "after variable declaration"
          pure (.declare type name init (start.span.merge semi.span)))
        fun s rest => Row tokens n [.stmt s] rest := by
      intro init ts hinit
      obtain ⟨hstart, hset, hlaid⟩ := Row.expr_iff.1 hinit
      have hpos : init.span.start < init.span.stop := hset.lies.nonempty
      refine laid_mark hlaid fun semi ts hsemi hle hlt hlaid => ensures_pure ?_
      exact Row.node rfl (Span.starts_token hmem) (Span.stops_token hsemi) (by omega) (by omega)
        (by omega) hlt (.expr (by omega) hset (.nil (by omega))) hlaid
    refine ensures_see (.ite ?_ ?_)
    · refine laid_mark hlaid fun sign ts _ hle hlt hlaid => ?_
      exact row_call hX (Row.nil_iff.2 (hlaid.mono (by omega))) hend
    · -- a value that is not written lies on the name
      exact hend _ ts (Row.expr_iff.2 ⟨hle', wellSet_literal ht hlt' value, hlaid⟩)

/-- A condition in parentheses, which are no part of it. -/
lemma laid_condition {β : Type} {place : String} {f : Expr → Plan β} {Q : β → List Token → Prop}
    (hX : Continues tokens X) (h : Laid tokens n ts)
    (hf : ∀ e rest, n ≤ e.span.start → (Node.expr e).WellSet tokens →
      e.span.start < e.span.stop → Laid tokens e.span.stop rest → Ensures X rest (f e) Q) :
    Ensures X ts (conditionPlan depth place >>= f) Q := by
  refine ensures_bind (laid_mark h fun opening ts _ hle hlt hlaid => ?_)
  refine laid_expr hX Symbol.alone_expression hlaid fun e ts hstart hset hpos hlaid => ?_
  refine laid_mark hlaid fun closing ts _ hle' hlt' hlaid => ensures_pure ?_
  exact hf e ts (by omega) hset hpos (hlaid.mono (by omega))

/-- An `if` reaches from its word to the end of its last branch. -/
lemma if_row (hX : Continues tokens X) (h : Laid tokens n ts) :
    Ensures X ts (ifPlan depth) fun s rest => Row tokens n [.stmt s] rest := by
  refine laid_word h fun start ts hmem hle hlt hlaid => ?_
  refine laid_condition hX hlaid fun c ts hc hcset hcpos hlaid => ?_
  refine laid_stmt hX hlaid fun s ts hs hsset hspos hlaid => ?_
  refine ensures_see (.ite ?_ (ensures_pure ?_))
  · refine laid_word hlaid fun word ts _ hle' hlt' hlaid => ?_
    refine laid_stmt hX hlaid fun s' ts hs' hsset' hspos' hlaid => ensures_pure ?_
    have hmerge : start.span.merge s.span = { start.span with stop := s.span.stop } :=
      Span.merge_of_le (by omega) (by omega)
    rw [hmerge]
    exact Row.node (s := { start.span with stop := s.span.stop }) rfl (Span.starts_token hmem)
      hsset'.lies.stops hle (by dsimp only; omega) (by dsimp only; omega) hspos'
      (.expr (by dsimp only; omega) hcset (.stmt hs hsset (.stmt (by omega) hsset' (.nil le_rfl))))
      hlaid
  · exact Row.node rfl (Span.starts_token hmem) hsset.lies.stops hle (by omega) (by omega) hspos
      (.expr (by omega) hcset (.stmt hs hsset (.nil le_rfl))) hlaid

/-- A loop reaches from its word to the end of its body. -/
lemma while_row (hX : Continues tokens X) (h : Laid tokens n ts) :
    Ensures X ts (whilePlan depth) fun s rest => Row tokens n [.stmt s] rest := by
  refine laid_word h fun start ts hmem hle hlt hlaid => ?_
  refine laid_condition hX hlaid fun c ts hc hcset hcpos hlaid => ?_
  refine laid_stmt hX hlaid fun s ts hs hsset hspos hlaid => ensures_pure ?_
  exact Row.node rfl (Span.starts_token hmem) hsset.lies.stops hle (by omega) (by omega) hspos
    (.expr (by omega) hcset (.stmt hs hsset (.nil le_rfl))) hlaid

/-- The value of a `return`, if there is one. -/
lemma children_return (value : Option Expr) (s : Span) :
    (Node.stmt (.return_ value s)).children = value.toList.map .expr := by
  simp [Node.children, Node.links, Node.stmtLinks]

/-- A `return` reaches from its word to the semicolon. -/
lemma return_row (hX : Continues tokens X) (h : Laid tokens n ts) :
    Ensures X ts (returnPlan depth) fun s rest => Row tokens n [.stmt s] rest := by
  refine laid_word h fun start ts hmem hle hlt hlaid => ?_
  have hend : ∀ (value : Option Expr) ts, Row tokens start.span.stop (value.toList.map .expr) ts →
      Ensures X ts
        (do
          let semi ← Plan.mark .semi "after return"
          pure (.return_ value (start.span.merge semi.span)))
        fun s rest => Row tokens n [.stmt s] rest := by
    intro value ts hvalue
    refine ensures_mark fun semi ts hts => ensures_pure ?_
    subst hts
    obtain ⟨hsemi, hle', hlt', hlaid⟩ := hvalue.laid
    refine Row.node rfl (Span.starts_token hmem) (Span.stops_token hsemi) hle (by omega) (by omega)
      hlt' ?_ hlaid
    rw [children_return]
    exact hvalue.chain.mono (by omega) (by omega)
  refine ensures_see (.ite (hend none ts (Row.nil_iff.2 hlaid)) ?_)
  refine laid_expr hX Symbol.alone_expression hlaid fun e ts hstart hset hpos hlaid => ?_
  exact hend (some e) ts (Row.expr_iff.2 ⟨hstart, hset, hlaid⟩)

/-- An expression as a statement reaches to the semicolon. -/
lemma eval_row (hX : Continues tokens X) (h : Laid tokens n ts) :
    Ensures X ts (evalPlan depth) fun s rest => Row tokens n [.stmt s] rest := by
  refine laid_expr hX Symbol.alone_expression h fun e ts hstart hset hpos hlaid => ?_
  refine laid_mark hlaid fun semi ts hsemi hle hlt hlaid => ensures_pure ?_
  exact Row.node rfl hset.lies.starts (Span.stops_token hsemi) hstart (by omega) (by omega) hlt
    (.expr le_rfl hset (.nil (by omega))) hlaid

/-- A block as a statement is the block itself. -/
lemma wellSet_blockStmt {b : Block} (h : (Node.block b).WellSet tokens) :
    (Node.stmt (.block b.body b.span)).WellSet tokens := by
  intro ls y hpath
  cases hpath with
  | nil =>
    obtain ⟨hlt, hstarts, hstops, hinside, hordered⟩ := h.lies
    exact ⟨hlt, hstarts, hstops, hinside, hordered⟩
  | cons hmem htail => exact h (.cons hmem htail)

/-- All forms of statements. -/
lemma form_row (hX : Continues tokens X) (h : Laid tokens n ts) :
    Ensures X ts (formPlan depth) fun s rest => Row tokens n [.stmt s] rest := by
  refine ensures_see (.ite (if_row hX h) (ensures_see (.ite (while_row hX h) ?_)))
  refine ensures_see (.ite (return_row hX h) (ensures_see (.ite ?_ (eval_row hX h))))
  refine laid_block hX h fun b ts hstart hset hpos hlaid => ensures_pure ?_
  exact Row.single_iff.2 ⟨hstart, wellSet_blockStmt hset, hlaid⟩

/-- What stands in a block. -/
lemma item_row (hX : Continues tokens X) (h : Laid tokens n ts) :
    Ensures X ts (itemPlan depth) fun s rest => Row tokens n [.stmt s] rest := by
  refine ensures_see (.ite (row_ask (x := .declaration) hX (Row.nil_iff.2 h)) (ensures_see ?_))
  cases misspelledType? ts with
  | some name => exact ensures_fault
  | none => exact row_ask (x := .statement) hX (Row.nil_iff.2 h)

end Statements

/-! ## Files -/

section Files

variable {X : Readers} {ts : List Token} {depth : Nat}

/-- An import reaches from its word to the semicolon. -/
lemma import_row (h : Laid tokens n ts) {i : Import} {rest : List Token}
    (hr : importRule ts = .ok i rest) : Row tokens n [.import_ i] rest := by
  simp only [importRule, Rule.word, Rule.mark, Rule.bind_eq_ok, Rule.token_eq_ok] at hr
  obtain ⟨start, _, ⟨rfl, -⟩, name, _, hname, semi, _, ⟨rfl, -⟩, hr⟩ := hr
  obtain ⟨t, rfl, -, -⟩ := Rule.name_eq_ok.1 hname
  cases hr
  obtain ⟨hmem, hle, hlt, -, hle', hlt', hsemi, hle'', hlt'', hlaid⟩ := h
  exact Row.node rfl (Span.starts_token hmem) (Span.stops_token hsemi) hle (by omega) (by omega)
    hlt'' (.nil (by omega)) hlaid

/-- Parameters. -/
lemma params_row {name : String} (hX : Continues tokens X) (h : Laid tokens n ts) :
    Ensures X ts (paramsPlan depth name) fun ps rest => Row tokens n (ps.map .param) rest := by
  refine ensures_see (.ite (ensures_pure (Row.nil_iff.2 h)) ?_)
  refine laid_type hX h fun type start ts hmem hle hlt hlaid => ?_
  refine laid_name hlaid fun name t ts ht hle' hlt' hlaid => ?_
  refine ensures_see (.ite ensures_fault (ensures_pure ?_))
  exact Row.node (s := start.span) (t := t.span) rfl (Span.starts_token hmem) (Span.stops_token ht)
    hle (by omega) (by omega) hlt' (.nil (by omega)) hlaid

/-- The parts of a function. -/
lemma children_function (f : Function) :
    (Node.function f).children = f.params.map .param ++ [.block f.body] := by
  simp [Node.children, Node.links]

/-- A function reaches from its type to its closing brace. -/
lemma function_row (hX : Continues tokens X) (h : Laid tokens n ts) :
    Ensures X ts (functionPlan depth) fun f rest => Row tokens n [.function f] rest := by
  refine laid_type hX h fun type start ts hmem hle hlt hlaid => ?_
  refine laid_word hlaid fun word ts _ hle₁ hlt₁ hlaid => ?_
  refine laid_name hlaid fun name t ts _ hle₂ hlt₂ hlaid => ?_
  refine laid_mark hlaid fun opening ts _ hle₃ hlt₃ hlaid => ?_
  refine ensures_bind ((params_row hX hlaid).imp fun ps ts hps => ?_)
  refine ensures_mark fun closing ts hts => ?_
  subst hts
  obtain ⟨-, hle₄, hlt₄, hlaid⟩ := hps.laid
  refine laid_block hX hlaid fun b ts hstart hset hpos hlaid => ensures_pure ?_
  refine Row.node (s := start.span) rfl (Span.starts_token hmem) hset.lies.stops hle (by omega)
    (by omega) hpos ?_ hlaid
  rw [children_function]
  dsimp only
  exact (hps.chain.mono (by omega) (by omega)).append (.block le_rfl hset (.nil le_rfl))

/-- The function `main` reaches from its word to its closing brace. -/
lemma main_row (hX : Continues tokens X) (h : Laid tokens n ts) :
    Ensures X ts mainPlan fun f rest => Row tokens n [.function f] rest := by
  refine laid_word h fun start ts hmem hle hlt hlaid => ?_
  refine laid_mark hlaid fun opening ts _ hle₁ hlt₁ hlaid => ?_
  refine laid_mark hlaid fun closing ts _ hle₂ hlt₂ hlaid => ?_
  refine laid_block hX hlaid fun b ts hstart hset hpos hlaid => ensures_pure ?_
  exact Row.node rfl (Span.starts_token hmem) hset.lies.stops hle (by omega) (by omega) hpos
    (.block (b := b) (by omega) hset (.nil le_rfl)) hlaid

/-- The nodes of phrases one after the other are those of each phrase. -/
structure Lists {α : Type} (x : Symbol α) (xs : Symbol (List α)) : Prop where
  given : x.given = [] ∧ xs.given = []
  kept : (∀ a, x.kept a = []) ∧ ∀ as, xs.kept as = []
  nil : xs.nodes [] = []
  cons : ∀ a as, xs.nodes (a :: as) = x.nodes a ++ xs.nodes as

/-- Phrases one after the other, each behind the one before. -/
lemma list_row {α : Type} {x : Symbol α} {xs : Symbol (List α)} {starts : List Token → Bool}
    (hX : Continues tokens X) (hlists : Lists x xs) (h : Laid tokens n ts) :
    Ensures X ts (listPlan starts (ask x depth) (ask xs depth)) fun as rest =>
      Row tokens n (xs.nodes as) (xs.kept as ++ rest) := by
  simp only [hlists.kept.2, List.nil_append]
  refine ensures_see (.ite ?_ (ensures_pure ?_))
  · refine row_call (n := n) hX (by rw [hlists.given.1, Row.nil_iff]; exact h) fun a ts ha => ?_
    rw [hlists.kept.1] at ha
    obtain ⟨m, hchain, hlaid⟩ := ha
    refine row_call (n := m) hX (by rw [hlists.given.2, Row.nil_iff]; exact hlaid)
      fun as ts has => ?_
    rw [hlists.kept.2] at has
    obtain ⟨k, hchain', hlaid⟩ := has
    refine ensures_pure ⟨k, ?_, hlaid⟩
    rw [hlists.cons]
    exact hchain.append hchain'
  · rw [hlists.nil, Row.nil_iff]
    exact h

/-- The parts of a program. -/
lemma program_row {file : String} (hX : Continues tokens X) (h : Laid tokens n ts) :
    Ensures X ts (programPlan depth file) fun p rest => Row tokens n p.parts rest := by
  refine row_call (x := .imports) hX (Row.nil_iff.2 h) fun is ts his => ?_
  obtain ⟨m, hchain, hlaid⟩ := his
  refine row_call (x := .functions) hX (Row.nil_iff.2 hlaid) fun fs ts hfs => ?_
  obtain ⟨k, hchain', hlaid⟩ := hfs
  refine ensures_see (.ite ?_ ensures_expected)
  refine row_call (x := .main) hX (Row.nil_iff.2 hlaid) fun f ts hf => ?_
  obtain ⟨l, hchain'', hlaid⟩ := hf
  refine ensures_see (.ite (ensures_pure ?_) ensures_expected)
  exact ⟨l, hchain.append (hchain'.append hchain''), hlaid⟩

/-- What stands in a library. -/
lemma libraryItem_row (hX : Continues tokens X) (h : Laid tokens n ts) :
    Ensures X ts (libraryItemPlan depth) fun f rest =>
      Row tokens n (f.toList.map .function) rest := by
  refine ensures_see (.ite ?_ (ensures_see (.ite ?_ (ensures_see ensures_fault))))
  · refine row_call (x := .import_) hX (Row.nil_iff.2 h) fun i ts hi => ensures_pure ?_
    exact Row.nil_iff.2 hi.laid
  · refine row_call (x := .function) hX (Row.nil_iff.2 h) fun f ts hf => ensures_pure ?_
    exact hf

end Files

/-! ## Everything that is read -/

/-- **One round of plans** continues rows, if the rules for its calls do. -/
lemma plan_row {X : Readers} (hX : Continues tokens X) {α : Type} (x : Symbol α) (depth : Nat)
    (ts : List Token) : (plan x depth).Ensures X ts (Extends tokens x ts) := by
  intro a rest hrun n hrow
  revert a rest
  show (plan x depth).Ensures X ts fun a rest => Row tokens n (x.nodes a) (x.kept a ++ rest)
  cases x with
  | primary => exact primary_row hX (Row.nil_iff.1 hrow)
  | suffixes e => exact suffixes_row hX hrow
  | suffixed =>
    refine laid_expr hX Symbol.alone_primary (Row.nil_iff.1 hrow)
      fun e ts hstart hset hpos hlaid => ?_
    exact row_ask (x := .suffixes e) hX (Row.expr_iff.2 ⟨hstart, hset, hlaid⟩)
  | prefixed => exact prefixed_row hX (Row.nil_iff.1 hrow)
  | operand =>
    cases depth with
    | zero => exact ensures_fault
    | succ depth => exact row_ask (x := .prefixed) hX hrow
  | joins level left => exact joins_row hX hrow
  | binary level =>
    induction level using Fin.cases with
    | zero => exact row_ask (x := .operand) hX hrow
    | succ below =>
      refine laid_expr hX (Symbol.alone_binary _) (Row.nil_iff.1 hrow)
        fun left ts hstart hset hpos hlaid => ?_
      exact row_ask (x := .joins below left) hX (Row.expr_iff.2 ⟨hstart, hset, hlaid⟩)
  | expression => exact expression_row hX (Row.nil_iff.1 hrow)
  | arguments => exact arguments_row hX (Row.nil_iff.1 hrow)
  | moreArguments => exact moreArguments_row hX (Row.nil_iff.1 hrow)
  | block => exact block_row hX (Row.nil_iff.1 hrow)
  | items => exact items_row hX (Row.nil_iff.1 hrow)
  | declaration => exact declaration_row hX (Row.nil_iff.1 hrow)
  | form => exact form_row hX (Row.nil_iff.1 hrow)
  | statement =>
    cases depth with
    | zero => exact ensures_fault
    | succ depth => exact row_ask (x := .form) hX hrow
  | item => exact item_row hX (Row.nil_iff.1 hrow)
  | type =>
    refine ensures_read ?_
    rintro ⟨type, t⟩ rest hr
    obtain ⟨rfl, -⟩ := typeRule_eq_ok.1 hr
    exact hrow
  | import_ => exact ensures_read fun i rest hr => import_row (Row.nil_iff.1 hrow) hr
  | function => exact function_row hX (Row.nil_iff.1 hrow)
  | main => exact main_row hX (Row.nil_iff.1 hrow)
  | imports =>
    refine list_row hX ⟨⟨rfl, rfl⟩, ⟨fun _ => rfl, fun _ => rfl⟩, rfl, fun _ _ => rfl⟩ ?_
    exact Row.nil_iff.1 hrow
  | functions =>
    refine list_row hX ⟨⟨rfl, rfl⟩, ⟨fun _ => rfl, fun _ => rfl⟩, rfl, fun _ _ => rfl⟩ ?_
    exact Row.nil_iff.1 hrow
  | program file => exact program_row hX (Row.nil_iff.1 hrow)
  | libraryItem => exact libraryItem_row hX (Row.nil_iff.1 hrow)
  | libraryItems =>
    refine list_row hX ⟨⟨rfl, rfl⟩, ⟨fun _ => rfl, fun _ => rfl⟩, rfl, fun f _ => ?_⟩
      (Row.nil_iff.1 hrow)
    cases f <;> rfl
  | library => exact row_call (x := .libraryItems) hX hrow fun fs ts hfs => ensures_pure hfs

/-- **Nodes are read in rows.**  From tokens that follow each other, what is read are nodes that
follow each other, and all below them lie as they should. -/
lemma ruleOf_row {α : Type} {x : Symbol α} {depth : Nat} {ts rest : List Token} {a : α}
    (h : ruleOf x depth ts = .ok a rest) : Extends tokens x ts a rest :=
  ruleOf_induction (Q := fun _ x _ ts a rest => Extends tokens x ts a rest)
    (fun _ hX _ x depth ts => plan_row hX x depth ts) h

end Grammar

/-! ## Whole texts -/

namespace Scanner

/-- The tokens of a text tile it: none of them is empty, and they follow each other. -/
lemma Reads.steps_tiles {text file : String} {before : List Char} {s : Scanner}
    (h : Reads text file before s) {found : List Token} (hfound : s.steps.mapM id = .ok found) :
    ∃ body last j, found = body ++ [last] ∧ last.kind = .endOfFile ∧ .endOfFile ∉ kinds body ∧
      Tiles text (byteLength before) (body.map .ok) j := by
  fun_induction steps s generalizing before found with
  | case1 s hend =>
    obtain ⟨hnext, -⟩ := next_of_atEnd hend
    rw [hnext] at hfound
    obtain ⟨last, us, hlast, hus, rfl⟩ := mapM_cons_eq_ok.1 hfound
    obtain rfl : [] = us := Except.ok.inj hus
    obtain rfl : _ = last := Except.ok.inj hlast
    exact ⟨[], _, _, rfl, rfl, by simp, .nil _⟩
  | case2 s hend ih =>
    obtain ⟨t, us, ht, hus, rfl⟩ := mapM_cons_eq_ok.1 hfound
    obtain ⟨before', hreads, hkind, htiles⟩ := h.step_tiles (by simpa using hend)
    obtain ⟨body, last, j, rfl, hlast, hbody, hrest⟩ := ih hreads hus
    refine ⟨t :: body, last, j, rfl, hlast, ?_, ?_⟩
    · rw [kinds_cons, List.mem_cons]
      exact fun hmem => hmem.elim (fun heq => hkind t ht heq.symm) hbody
    · have := htiles hrest
      rwa [ht] at this

end Scanner

/-- Tokens that tile a text follow each other. -/
lemma laid_of_tiles {text : String} {i j : Nat} {body : List Token}
    (hmem : ∀ t ∈ body, t ∈ tokens) (h : Tiles text i (body.map .ok) j) : Laid tokens i body := by
  induction body generalizing i with
  | nil => exact trivial
  | cons t body ih =>
    cases h with
    | cons hgap hlt _ htail =>
      exact ⟨hmem t List.mem_cons_self, hgap.le, hlt,
        ih (fun u hu => hmem u (List.mem_cons_of_mem t hu)) htail⟩

/-- The tokens of a text follow each other from its start on, up to the end of the file. -/
lemma scan_laid {text file : String} {found : List Token} (h : scan text file = .ok found) :
    ∃ body last, found = body ++ [last] ∧ last.kind = .endOfFile ∧ .endOfFile ∉ kinds body ∧
      Laid found 0 body := by
  obtain ⟨body, last, j, rfl, hlast, hbody, htiles⟩ :=
    (Scanner.reads_ofText text file).steps_tiles h
  exact ⟨body, last, rfl, hlast, hbody,
    laid_of_tiles (fun t ht => List.mem_append_left _ ht) htiles⟩

/-- **The nodes of a tree are well nested.**  In a program that is read from a text, every node is
not empty; it starts where a token does, at the same line and column, and ends where a token does;
its parts lie inside it and follow each other in the text.  So do the imports, the functions and
`main`.

**Proof sketch.**  The tokens of a text follow each other (`scan_laid`).  What each function of the
grammar reads from such tokens continues a row of nodes that follow each other
(`Idyl.Grammar.ruleOf_row`), by induction over the rounds of plans; so a program is a row of its
parts. -/
theorem parseProgram_wellSet {text file : String} {p : Program}
    (h : parseProgram text file = .ok p) :
    ∃ found, scan text file = .ok found ∧
      (∀ x ∈ p.parts, ∀ ls y, Node.Path x ls y → y.Lies found) ∧
      p.parts.Pairwise fun x y => x.span.stop ≤ y.span.start := by
  cases hscan : scan text file with
  | error e =>
    rw [parseProgram, Session.ofText, hscan] at h
    cases h
  | ok found =>
    refine ⟨found, rfl, ?_⟩
    rw [parseProgram_of_scan hscan, except_mapError_eq_ok] at h
    obtain ⟨body, last, rfl, hlast, hbody, hlaid⟩ := scan_laid hscan
    obtain ⟨rest, hrule⟩ := (parseTokens_eq_ok hlast hbody).1 h
    have hread : Grammar.ruleOf (.program (Session.fileOf (body ++ [last]))) maxDepth body =
        .ok p rest := hrule
    obtain ⟨m, hchain, -⟩ := Grammar.ruleOf_row hread (Row.nil_iff.2 hlaid)
    exact ⟨fun x hx ls y hpath => (hchain.inside x hx).2.2 hpath, hchain.ordered⟩

/-- A text with parentheses, a sign, a variable declared without a value, and a comment. -/
def signedText : String :=
  "use m; int function f(int n) \x7b int k; return -(n) * k; \x7d // half\nmain() \x7b f((2)).g; \x7d"

/-- The three parts of this program, and all nodes below them. -/
theorem parseProgram_wellSet_signed :
    ∃ p found, parseProgram signedText "a.idyl" = .ok p ∧ scan signedText "a.idyl" = .ok found ∧
      p.parts.length = 3 ∧ (∀ x ∈ p.parts, ∀ ls y, Node.Path x ls y → y.Lies found) ∧
      p.parts.Pairwise fun x y => x.span.stop ≤ y.span.start := by
  have hlength : (parseProgram signedText "a.idyl").map (fun p => p.parts.length) = .ok 3 := by
    decide +kernel
  obtain ⟨p, hp, hlength⟩ := except_map_eq_ok.1 hlength
  obtain ⟨found, hscan, hlies, hordered⟩ := parseProgram_wellSet hp
  exact ⟨p, found, hp, hscan, hlength, hlies, hordered⟩

end Idyl
