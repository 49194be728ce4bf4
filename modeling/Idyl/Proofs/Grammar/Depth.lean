import Mathlib
import Idyl.Proofs.Paths

/-!
# How deep trees are nested

The levels of nesting that the rules count bound the tree that is read: on no path from the body of
a function down are more than `maxDepth` statements, operands of unary operators and arguments of
calls, where an expression that the path enters counts as well.

Only what is written is counted.  A variable that is declared without a value gets one, and this
expression takes no level; so a declaration may stand where there is no level left for an
expression.

## Main definitions

* `Idyl.Link.nests` — the links that lead one level down.
* `Idyl.Node.Under` — nodes below which there are only so many levels.

## Main results

* `Idyl.Grammar.operand_under`, `Idyl.Grammar.statement_under` — the levels below expressions and
  statements, by their productions.
* `Idyl.Grammar.read_nested` — the bound for everything that is read.
* `Idyl.Grammar.read_default_deepest` — a tree that goes beyond it by the value of a variable that
  is declared without one.
-/

set_option autoImplicit false

namespace Idyl

/-! ## Levels on a path -/

/-- Whether a link leads one level down. -/
def Link.nests : Link → Bool
  | statement | operand | argument => true
  | _ => false

/-- The levels that a link takes, if the way into an expression takes one. -/
def Link.cost : Link → Nat
  | statement | operand | argument | expression => 1
  | _ => 0

/-- A path enters an expression only once, but nothing is lost by counting this each time. -/
lemma Link.nests_add_entered_le (ls : List Link) :
    ls.countP Link.nests + (if Link.expression ∈ ls then 1 else 0) ≤ (ls.map Link.cost).sum := by
  induction ls with
  | nil => simp
  | cons l ls ih =>
    have htail : ls.countP Link.nests ≤ (ls.map Link.cost).sum := by omega
    cases l <;> simp only [List.countP_cons, List.map_cons, List.sum_cons, List.mem_cons, nests,
      cost, reduceCtorEq, false_or, true_or, if_true, Bool.false_eq_true, if_false] <;> omega

namespace Node

/-- Below the node there are less than the given number of levels on each path. -/
def Under (levels : Nat) (x : Node) : Prop :=
  ∀ ⦃ls y⦄, Path x ls y → (ls.map Link.cost).sum < levels

variable {levels levels' : Nat} {x : Node}

/-- The node itself counts. -/
lemma Under.pos (h : x.Under levels) : 0 < levels := h (.nil x)

/-- More levels may be allowed. -/
lemma Under.mono (h : x.Under levels) (hle : levels ≤ levels') : x.Under levels' :=
  fun _ _ hpath => (h hpath).trans_le hle

/-- The levels below a node, from those below its parts. -/
lemma under_of_links (hpos : 0 < levels)
    (h : ∀ part ∈ x.links, part.2.Under (levels - part.1.cost)) : x.Under levels := by
  intro ls y hpath
  cases hpath with
  | nil => exact hpos
  | @cons _ part _ l ls hmem htail =>
    have hlt : (ls.map Link.cost).sum < levels - l.cost := h _ hmem htail
    simp only [List.map_cons, List.sum_cons]
    omega

end Node

namespace Grammar

open Node

variable {operand expression group primary : Phrase Expr} {statement : Phrase Stmt} {depth : Nat}

/-! ## Expressions -/

/-- Phrases that are read as expressions with less than the given number of levels. -/
def ExprUnder (depth : Nat) (phrase : Phrase Expr) : Prop :=
  ∀ ⦃ks e⦄, phrase ks e → (Node.expr e).Under depth

/-- More levels may be allowed for all phrases of a kind. -/
lemma ExprUnder.mono {phrase : Phrase Expr} {depth' : Nat} (h : ExprUnder depth phrase)
    (hle : depth ≤ depth') : ExprUnder depth' phrase :=
  fun _ _ he => (h he).mono hle

/-- A literal has nothing below it. -/
lemma literal_under (hpos : 0 < depth) (value : Literal) (s : Span) :
    (Node.expr (.lit value s)).Under depth :=
  under_of_links hpos (by simp [links, exprLinks])

/-- A binary operator takes no level, so both operands are on its own. -/
lemma binary_node_under {op : BinaryOp} {l r : Expr} {s : Span} (hl : (Node.expr l).Under depth)
    (hr : (Node.expr r).Under depth) : (Node.expr (.binary op l r s)).Under depth :=
  under_of_links hl.pos (by simpa [links, exprLinks, Link.cost] using ⟨hl, hr⟩)

/-- Operands that are joined stay on the level of a single one. -/
lemma joined_under {level : Nat} (h : ExprUnder depth operand) :
    ExprUnder depth (Joined level operand) := by
  intro ks e he
  induction he with
  | single he => exact h he
  | join _ _ hright ih => exact binary_node_under ih (h hright)

/-- So do operators of all levels. -/
lemma binary_under (h : ExprUnder depth operand) (level : Nat) :
    ExprUnder depth (Binary operand level) := by
  induction level with
  | zero => exact h
  | succ level ih => exact joined_under ih

/-- Assignments take no level either. -/
lemma expression_under (h : ExprUnder depth operand) : ExprUnder depth (Expression operand) := by
  intro ks e he
  induction he with
  | value he => exact binary_under h _ he
  | assign _ _ ih => exact under_of_links ih.pos (by simpa [links, exprLinks, Link.cost] using ih)

/-- Literals and names have nothing below them, and groups what stands in them. -/
lemma primary_under (hpos : 0 < depth) (h : ExprUnder depth group) :
    ExprUnder depth (Primary group) := by
  intro ks e he
  cases he with
  | group he => exact h he
  | name => exact under_of_links hpos (by simp [links, exprLinks])
  | _ => exact literal_under hpos _ _

/-- Arguments are expressions. -/
lemma arguments_under (h : ExprUnder depth expression) {ks : List TokenKind} {es : List Expr}
    (hargs : Arguments expression ks es) : ∀ e ∈ es, (Node.expr e).Under depth := by
  cases hargs with
  | none => simp
  | some hfirst hothers =>
    refine List.forall_mem_cons.2 ⟨h hfirst, ?_⟩
    clear hfirst
    induction hothers with
    | nil => simp
    | cons he _ ih =>
      cases he with
      | mk he => exact List.forall_mem_cons.2 ⟨h he, ih⟩

/-- Arguments of a call are one level down. -/
lemma suffixed_under (hprimary : ExprUnder (depth + 1) primary) (h : ExprUnder depth expression) :
    ExprUnder (depth + 1) (Suffixed primary expression) := by
  intro ks e he
  induction he with
  | primary he => exact hprimary he
  | call _ hargs ih =>
    refine under_of_links ih.pos ?_
    simpa [links, exprLinks, Link.cost] using ⟨ih, arguments_under h hargs⟩
  | member _ ih => exact under_of_links ih.pos (by simpa [links, exprLinks, Link.cost] using ih)

/-- The operand of an operator in front is one level down. -/
lemma signed_under (hoperand : ExprUnder depth operand) (h : ExprUnder depth expression)
    (hgroup : ExprUnder depth group) :
    ExprUnder (depth + 1) (Signed operand expression group) := by
  intro ks e he
  cases he with
  | negation he =>
    exact under_of_links (Nat.succ_pos depth)
      (by simpa [links, exprLinks, Link.cost] using hoperand he)
  | minus he =>
    exact binary_node_under (literal_under (Nat.succ_pos depth) _ _)
      ((hoperand he).mono (Nat.le_succ depth))
  | plain he =>
    exact suffixed_under (primary_under (Nat.succ_pos depth) (hgroup.mono (Nat.le_succ depth))) h he

/-- **Operands**, by induction over the levels left.  What stands in parentheses has two less,
though there is no trace of them in the tree. -/
lemma operand_under (depth : Nat) : ExprUnder depth (Operand depth) := by
  induction depth using Nat.strongRecOn with
  | ind depth ih =>
    cases depth with
    | zero => exact fun _ _ he => he.elim
    | succ depth =>
      rw [operand_succ]
      have hoperand := ih depth (Nat.lt_succ_self depth)
      refine signed_under hoperand (expression_under hoperand) ?_
      cases depth with
      | zero => exact fun _ _ he => he.elim
      | succ inner => exact (expression_under (ih inner (by omega))).mono (Nat.le_succ inner)

/-! ## Statements -/

/-- Phrases that are read as statements with less than the given number of levels. -/
def StmtUnder (depth : Nat) (phrase : Phrase Stmt) : Prop :=
  ∀ ⦃ks s⦄, phrase ks s → (Node.stmt s).Under depth

/-- The value of a variable declared without one takes no level, so it does not matter whether one
is left. -/
lemma declaration_under (h : ExprUnder depth expression) :
    StmtUnder (depth + 1) (Declaration expression) := by
  intro ks s hs
  cases hs with
  | default _ hvalue =>
    refine under_of_links (Nat.succ_pos depth) ?_
    simpa [links, stmtLinks, Expr.initLink, Expr.isDefault, hvalue, Link.cost]
      using literal_under (Nat.succ_pos depth) _ _
  | value _ _ hvalue =>
    have hinit := h hvalue
    refine under_of_links (Nat.succ_pos depth) ?_
    simp only [links, stmtLinks, List.forall_mem_singleton, Expr.initLink]
    split
    · exact hinit.mono (Nat.le_succ depth)
    · exact hinit

/-- A statement that takes a level, seen from where it stands. -/
lemma link_under {s : Stmt} (h : (Node.stmt s).Under depth) :
    (Node.stmt s).Under (depth + 1 - s.link.cost) := by
  unfold Stmt.link
  split
  · exact h.mono (Nat.le_succ depth)
  · exact h

/-- What stands in a block, seen from the block. -/
lemma item_under (h : ExprUnder depth expression) (hs : StmtUnder depth statement)
    {ks : List TokenKind} {s : Stmt} (hitem : Item expression statement ks s) :
    (Node.stmt s).Under (depth + 1 - s.link.cost) := by
  cases hitem with
  | declaration hd =>
    have hunder := declaration_under h hd
    cases hd <;> exact hunder
  | statement hst _ => exact link_under (hs hst)

/-- All that stands in a block, seen from the block. -/
lemma items_under (h : ExprUnder depth expression) (hs : StmtUnder depth statement)
    {ks : List TokenKind} {b : Block} (hb : Braces expression statement ks b) :
    ∀ s ∈ b.body, (Node.stmt s).Under (depth + 1 - s.link.cost) := by
  cases hb with
  | mk hbody =>
    induction hbody with
    | nil => simp
    | cons hitem _ ih => exact List.forall_mem_cons.2 ⟨item_under h hs hitem, ih⟩

/-- Branches and bodies are one level down. -/
lemma form_under (h : ExprUnder depth expression) (hs : StmtUnder depth statement) :
    StmtUnder (depth + 1) (Form expression statement) := by
  intro ks s hform
  refine under_of_links (Nat.succ_pos depth) ?_
  cases hform with
  | eval he => simpa [links, stmtLinks, Link.cost] using h he
  | block hb => simpa [links, stmtLinks] using items_under h hs hb
  | ifThen hc ht => simpa [links, stmtLinks, Link.cost] using ⟨h hc, link_under (hs ht)⟩
  | ifElse hc ht _ he =>
    simpa [links, stmtLinks, Link.cost] using ⟨h hc, link_under (hs ht), link_under (hs he)⟩
  | while_ hc hb => simpa [links, stmtLinks, Link.cost] using ⟨h hc, link_under (hs hb)⟩
  | returnNone => simp [links, stmtLinks]
  | returnSome he => simpa [links, stmtLinks, Link.cost] using h he

/-- **Statements**, by induction over the levels left. -/
lemma statement_under (depth : Nat) : StmtUnder depth (Statement depth) := by
  induction depth with
  | zero => exact fun _ _ hs => hs.elim
  | succ depth ih => exact form_under (expression_under (operand_under depth)) ih

/-! ## Functions and files -/

/-- The body of a function starts with all levels. -/
lemma body_under {ks : List TokenKind} {b : Block} (h : Body depth ks b) :
    (Node.block b).Under (depth + 1) := by
  refine under_of_links (Nat.succ_pos depth) ?_
  simpa [links] using
    items_under (expression_under (operand_under depth)) (statement_under depth) h

end Grammar

/-- A function whose body is nested no deeper than it may be: on each path down from it, the links
that lead a level down are no more than `maxDepth`, together with one for an expression that the
path enters.  The value of a variable declared without one is not counted. -/
def Function.Nested (f : Function) : Prop :=
  ∀ ⦃ls y⦄, Node.Path (.block f.body) ls y →
    ls.countP Link.nests + (if Link.expression ∈ ls then 1 else 0) ≤ maxDepth

/-- The spans do not matter for how deep a function is nested. -/
lemma Function.nested_of_under {f : Function}
    (h : (Node.block f.bare.body).Under (maxDepth + 1)) : f.Nested := by
  intro ls y hpath
  have hcost : (ls.map Link.cost).sum < maxDepth + 1 := h hpath.bare
  have hle := Link.nests_add_entered_le ls
  omega

namespace Grammar

/-- The text of a function is nested no deeper than it may be. -/
lemma functionText_under {ks : List TokenKind} {f : Function} (h : FunctionText maxDepth ks f) :
    (Node.block f.body).Under (maxDepth + 1) := by
  cases h with
  | mk _ _ _ hbody => exact body_under hbody

/-- The functions of a library, with their spans taken away, are those that the tokens spell. -/
lemma exists_functionText_of_libraryRule {ts rest : List Token} {fs : List Function}
    (h : libraryRule ts = .ok fs rest) {f : Function} (hf : f ∈ fs) :
    ∃ ks, FunctionText maxDepth ks f.bare := by
  rw [libraryRule, Rule.bind_eq_ok] at h
  obtain ⟨items, mid, hmany, h⟩ := h
  cases h
  obtain ⟨ks, -, hitems⟩ := Rule.many_sound (fun _ _ _ _ hr => libraryItemRule_sound hr) hmany
  have hmem : some f.bare ∈ items.map (Option.map Function.bare) :=
    List.mem_map.2 ⟨some f, by simpa using hf, rfl⟩
  generalize items.map (Option.map Function.bare) = items' at hitems hmem
  clear hmany hf
  induction hitems with
  | nil => cases hmem
  | @cons ks' _ item _ hitem _ ih =>
    rcases List.mem_cons.1 hmem with heq | hmem
    · subst heq
      cases hitem with
      | function htext => exact ⟨ks', htext⟩
    · exact ih hmem

/-- So are all functions of a program. -/
lemma sentence_under {ks : List TokenKind} {p : Program} (h : Sentence ks p) :
    ∀ f ∈ p.allFunctions, (Node.block f.body).Under (maxDepth + 1) := by
  cases h with
  | mk _ hfunctions hmain =>
    refine List.forall_mem_append.2 ⟨?_, List.forall_mem_singleton.2 ?_⟩
    · clear hmain
      induction hfunctions with
      | nil => simp
      | cons hf _ ih => exact List.forall_mem_cons.2 ⟨functionText_under hf, ih⟩
    · cases hmain with
      | mk hbody => exact body_under hbody

/-- **What is read is nested no deeper than `maxDepth`.**  In a program or a library that is read
from tokens, whatever these are, no path from the body of a function down takes more than 128
levels: one for each statement other than a declaration, for each operand of a unary operator and
for each argument of a call, and one more if it enters an expression, unless this is the value that
a variable of its type has without one.

**Proof sketch.**  What is read is spelt by the tokens in front of the end of the file.  A statement
and an operand that are spelt with some levels left have less than these below them; a declaration
takes no level, and neither does the value it supplies. -/
theorem read_nested (tokens : List Token) :
    maxDepth = 128 ∧
    (∀ p, parseTokens tokens = .ok p → ∀ f ∈ p.allFunctions, f.Nested) ∧
    ∀ fs, parseLibraryTokens tokens = .ok fs → ∀ f ∈ fs, f.Nested := by
  refine ⟨rfl, ?_, ?_⟩
  · intro p hp f hf
    obtain ⟨rest, hrule⟩ := Session.read_eq_ok.1 hp
    have hend : .endOfFile ∉ kinds (Session.ofTokens tokens).ahead := by
      intro hmem
      obtain ⟨t, ht, hk⟩ := List.mem_map.1 hmem
      exact Session.kind_ne_of_mem_ahead ht hk
    refine Function.nested_of_under (sentence_under (programRule_sound hend hrule).1 f.bare ?_)
    have hall : p.bare.allFunctions = p.allFunctions.map Function.bare := by
      simp [Program.allFunctions, Program.bare]
    rw [hall]
    exact List.mem_map_of_mem hf
  · intro fs hfs f hf
    obtain ⟨rest, hrule⟩ := Session.read_eq_ok.1 hfs
    obtain ⟨ks, htext⟩ := exists_functionText_of_libraryRule hrule hf
    exact Function.nested_of_under (functionText_under htext)

/-- A program and a library that are nested no deeper; a path through the program takes five
levels. -/
theorem read_nested_sample :
    (∃ p ls, parseTokens nestedIf = .ok p ∧ p.main.Nested ∧
      Node.Path (.block p.main.body) ls (.expr (.var "c" {})) ∧ ls.countP Link.nests = 4 ∧
      .expression ∈ ls) ∧
    ∃ f, parseLibraryTokens negatingLibrary = .ok [f] ∧ f.Nested := by
  refine ⟨⟨_, [.statement, .statement, .statement, .expression, .part, .operand], rfl,
    (read_nested nestedIf).2.1 _ rfl _ (List.mem_singleton_self _), ?_, rfl, by simp⟩,
    ⟨_, rfl, (read_nested negatingLibrary).2.2 _ rfl _ (List.mem_singleton_self _)⟩⟩
  exact .cons (.head _) (.cons (.tail _ (.head _)) (.cons (.tail _ (.head _))
    (.cons (.head _) (.cons (.head _) (.cons (.head _) (.nil _))))))

/-! ## The deepest declaration -/

/-- The tokens of blocks, one in the other, around the declaration `int x;`. -/
def blockKinds : Nat → List TokenKind
  | 0 => [.keyword .int, .identifier "x", .punct .semi]
  | n + 1 => .punct .lbrace :: (blockKinds n ++ [.punct .rbrace])

/-- Blocks, one in the other, around the declaration `int x;`. -/
def blockTree : Nat → Stmt
  | 0 => .declare .int "x" (.lit (.int 0) {}) {}
  | n + 1 => .block [blockTree n] {}

/-- The declaration takes no level, so there may be as many blocks as there are levels. -/
lemma blockTree_item {depth n : Nat} (h : n ≤ depth) :
    Item (Expression (Operand depth)) (Statement depth) (blockKinds n) (blockTree n) := by
  induction n generalizing depth with
  | zero => exact .declaration (.default rfl rfl)
  | succ n ih =>
    obtain ⟨depth, rfl⟩ : ∃ d, depth = d + 1 := ⟨depth - 1, by omega⟩
    have hitems : Repeated (Item (Expression (Operand depth)) (Statement depth))
        (blockKinds n) [blockTree n] := by
      simpa using Repeated.cons (ih (by omega)) .nil
    exact .statement (.block (.mk hitems)) rfl

/-- From the outermost of some blocks to the value of the variable. -/
lemma blockTree_path (n : Nat) :
    ∃ ls y, Node.Path (.stmt (blockTree (n + 1))) ls y ∧
      ls.countP Link.nests = n ∧ .default ∈ ls := by
  induction n with
  | zero =>
    exact ⟨[.declaration, .default], _, .cons (.head _) (.cons (.head _) (.nil _)), rfl, by simp⟩
  | succ n ih =>
    obtain ⟨ls, y, hpath, hcount, hmem⟩ := ih
    refine ⟨.statement :: ls, y, .cons (.head _) hpath, ?_, List.mem_cons_of_mem _ hmem⟩
    simp [List.countP_cons, Link.nests, hcount]

/-- Nested blocks do not end the file. -/
lemma endOfFile_notMem_blockKinds (n : Nat) : .endOfFile ∉ blockKinds n := by
  induction n with
  | zero => simp [blockKinds]
  | succ n ih => simp [blockKinds, ih]

/-- The tokens of `main() { ... }` with blocks, one in the other, around `int x;`. -/
def nestedBlocks (n : Nat) : List Token :=
  (.keyword .main :: .punct .lparen :: .punct .rparen :: .punct .lbrace ::
    (blockKinds n ++ [.punct .rbrace])).map (fun k => ⟨k, "", {}, "a.idyl"⟩) ++
    [⟨.endOfFile, "", {}, "a.idyl"⟩]

/-- The tokens are up to the end of the file, and they spell the blocks in the function `main`. -/
lemma nestedBlocks_sentence (n : Nat) :
    ∃ body last, nestedBlocks n = body ++ [last] ∧ last.kind = .endOfFile ∧
      .endOfFile ∉ kinds body ∧
      SentenceWithin n (kinds body ++ [.endOfFile])
        ⟨[], [], ⟨"main", .void, [], ⟨[blockTree n], {}⟩, {}⟩, "a.idyl"⟩ := by
  have hitems : Repeated (Item (Expression (Operand n)) (Statement n))
      (blockKinds n) [blockTree n] := by
    simpa using Repeated.cons (blockTree_item le_rfl) .nil
  refine ⟨_, _, rfl, rfl, ?_, ?_⟩
  · simp [kinds, endOfFile_notMem_blockKinds]
  · simpa [kinds, Function.comp_def] using SentenceWithin.mk .nil .nil (.mk (.mk hitems))

/-- If the value of a variable that is declared without one were counted, the bound would not hold:
in as many blocks as there are levels, it still lies below them all. -/
theorem read_default_deepest :
    ∃ p ls y, parseTokens (nestedBlocks 128) = .ok p ∧ Node.Path (.block p.main.body) ls y ∧
      maxDepth < ls.countP Link.nests + (if .expression ∈ ls ∨ .default ∈ ls then 1 else 0) := by
  obtain ⟨body, last, htokens, hlast, hbody, hsentence⟩ := nestedBlocks_sentence 128
  rw [htokens]
  rcases programRule_complete hsentence with ⟨p, rest, hp, -, hr⟩ | ⟨hdeep, -⟩
  · obtain ⟨ls, y', hpath, hcount, hmem⟩ := blockTree_path 127
    have hbare : p.main.body.bare = ⟨[blockTree 128], {}⟩ :=
      congrArg (fun p => p.main.body) hp
    have hpath' : Node.Path (Node.block p.main.body).bare (.statement :: ls) y' := by
      rw [Node.bare, hbare]
      exact .cons (.head _) hpath
    obtain ⟨y, hpath, -⟩ := hpath'.exists_of_bare
    refine ⟨p, .statement :: ls, y, (parseTokens_eq_ok hlast hbody).2 ⟨rest, hr⟩, hpath, ?_⟩
    simp [List.countP_cons, Link.nests, hcount, hmem, maxDepth]
  · exact absurd hdeep (Nat.lt_irrefl maxDepth)

end Grammar

end Idyl
