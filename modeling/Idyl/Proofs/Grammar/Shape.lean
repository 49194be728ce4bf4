import Mathlib
import Idyl.Proofs.Nodes
import Idyl.Proofs.Grammar.Sentence
import Idyl.Proofs.Session.Calls

/-!
# The form of the trees that are read

Not every tree can be read from tokens.  A minus sign in front of an operand is read as a
subtraction from zero; a declaration stands in a block and nowhere else; an `else` belongs to the
nearest `if` that can take it.

## Main definitions

* `Idyl.Stmt.Regular`, `Idyl.Function.Regular` — the form of statements and functions that are read.

## Main results

* `Idyl.Grammar.operand_unsigned`, `Idyl.Grammar.statement_regular` — the form of expressions and of
  statements, by their productions.
* `Idyl.Grammar.read_regular` — the form of everything that is read.
-/

set_option autoImplicit false

namespace Idyl

/-! ## Regular trees -/

/-- Whether an expression is the operator `-` in front of an operand. -/
def Expr.isNeg : Expr → Bool
  | unary .neg _ _ => true
  | _ => false

/-- An expression in which no operator `-` stands in front of an operand. -/
def Expr.Unsigned (e : Expr) : Prop := ∀ x ∈ e.nodes, x.isNeg = false

/-- Whether a statement is a declaration. -/
def Stmt.isDeclaration : Stmt → Bool
  | declare .. => true
  | _ => false

/-- The form of one statement that is read, whatever the statements inside it are: no operator `-`
stands in front of an operand, no variable of type `void` is declared, no declaration is the branch
of an `if` or the body of a `while`, and in front of an `else` no statement stands that ends in an
`if` without `else`. -/
structure Stmt.Regular (s : Stmt) : Prop where
  unsigned : ∀ e ∈ s.exprs, e.Unsigned
  nonvoid : ∀ ⦃type name init span⦄, s = .declare type name init span → type ≠ .void
  branch : ∀ b ∈ s.branches, b.isDeclaration = false
  closed : ∀ ⦃condition thenBranch elseBranch span⦄,
    s = .ifElse condition thenBranch elseBranch span → thenBranch.endsOpen = false

/-- The form of a function that is read. -/
structure Function.Regular (f : Function) : Prop where
  stmts : ∀ s ∈ f.stmts, s.Regular
  params : f.params.length ≤ 1
  returns : f.returns ≠ .char

/-! ### Spans do not matter -/

/-- Operators are the same without spans. -/
lemma Expr.Unsigned.of_bare {e : Expr} (h : e.bare.Unsigned) : e.Unsigned := by
  intro x hx
  have hbare : x.bare.isNeg = false := h x.bare (by rw [nodes_bare]; exact List.mem_map_of_mem hx)
  cases x with
  | unary op operand s => cases op <;> first | rfl | exact hbare
  | _ => rfl

/-- A declaration is one without spans too. -/
lemma Stmt.isDeclaration_bare (s : Stmt) : s.bare.isDeclaration = s.isDeclaration := by
  cases s <;> rfl

/-- Whether a statement is regular is told without its spans. -/
lemma Stmt.Regular.of_bare {s : Stmt} (h : s.bare.Regular) : s.Regular where
  unsigned e he := .of_bare (h.unsigned e.bare (by rw [exprs_bare]; exact List.mem_map_of_mem he))
  nonvoid type name init span heq := h.nonvoid (by rw [heq]; rfl)
  branch b hb := by
    rw [← isDeclaration_bare]
    exact h.branch b.bare (by rw [branches_bare]; exact List.mem_map_of_mem hb)
  closed condition thenBranch elseBranch span heq := by
    rw [← endsOpen_bare]
    exact h.closed (by rw [heq]; rfl)

/-- Whether a function is regular is told without its spans. -/
lemma Function.Regular.of_bare {f : Function} (h : f.bare.Regular) : f.Regular where
  stmts s hs := .of_bare (h.stmts s.bare (by rw [stmts_bare]; exact List.mem_map_of_mem hs))
  params := by simpa [bare] using h.params
  returns := h.returns

namespace Grammar

/-! ## Expressions -/

variable {operand expression group primary : Phrase Expr} {statement : Phrase Stmt}

/-- Phrases that are read as expressions without an operator `-` in front of an operand. -/
def Unsigned (phrase : Phrase Expr) : Prop := ∀ ⦃ks e⦄, phrase ks e → e.Unsigned

/-- Joining operands brings in no sign. -/
lemma joined_unsigned {level : Nat} (h : Unsigned operand) : Unsigned (Joined level operand) := by
  intro ks e he
  induction he with
  | single he => exact h he
  | join _ _ hright ih => simpa [Expr.Unsigned, Expr.nodes, Expr.isNeg, or_imp, forall_and]
      using ⟨ih, h hright⟩

/-- Nor do operators of any level. -/
lemma binary_unsigned (h : Unsigned operand) (level : Nat) : Unsigned (Binary operand level) := by
  induction level with
  | zero => exact h
  | succ level ih => exact joined_unsigned ih

/-- Nor do assignments. -/
lemma expression_unsigned (h : Unsigned operand) : Unsigned (Expression operand) := by
  intro ks e he
  induction he with
  | value he => exact binary_unsigned h _ he
  | assign _ _ ih => simpa [Expr.Unsigned, Expr.nodes, Expr.isNeg] using ih

/-- Literals and names have no sign, and groups what stands in them. -/
lemma primary_unsigned (h : Unsigned group) : Unsigned (Primary group) := by
  intro ks e he
  cases he with
  | group he => exact h he
  | _ => simp [Expr.Unsigned, Expr.nodes, Expr.isNeg]

/-- Arguments are expressions. -/
lemma arguments_unsigned (h : Unsigned expression) {ks : List TokenKind} {es : List Expr}
    (hargs : Arguments expression ks es) : ∀ x ∈ Expr.nodesAll es, x.isNeg = false := by
  have hrepeated : ∀ {ks : List TokenKind} {es : List Expr},
      Repeated (AfterComma expression) ks es → ∀ x ∈ Expr.nodesAll es, x.isNeg = false := by
    intro ks es hes
    induction hes with
    | nil => simp [Expr.nodesAll]
    | cons he _ ih =>
      cases he with
      | mk he => simpa [Expr.nodesAll, or_imp, forall_and] using ⟨h he, ih⟩
  cases hargs with
  | none => simp [Expr.nodesAll]
  | some hfirst hothers =>
    simpa [Expr.nodesAll, or_imp, forall_and] using ⟨h hfirst, hrepeated hothers⟩

/-- Calls and members bring in no sign. -/
lemma suffixed_unsigned (hprimary : Unsigned primary) (h : Unsigned expression) :
    Unsigned (Suffixed primary expression) := by
  intro ks e he
  induction he with
  | primary he => exact hprimary he
  | call _ hargs ih => simpa [Expr.Unsigned, Expr.nodes, Expr.isNeg, or_imp, forall_and]
      using ⟨ih, arguments_unsigned h hargs⟩
  | member _ ih => simpa [Expr.Unsigned, Expr.nodes, Expr.isNeg] using ih

/-- A minus sign is read as a subtraction from zero. -/
lemma signed_unsigned (hoperand : Unsigned operand) (h : Unsigned expression)
    (hgroup : Unsigned group) : Unsigned (Signed operand expression group) := by
  intro ks e he
  cases he with
  | negation he => simpa [Expr.Unsigned, Expr.nodes, Expr.isNeg] using hoperand he
  | minus he => simpa [Expr.Unsigned, Expr.nodes, Expr.isNeg] using hoperand he
  | plain he => exact suffixed_unsigned (primary_unsigned hgroup) h he

/-- **Operands**, by induction over the levels left: what stands in parentheses has two less. -/
lemma operand_unsigned (depth : Nat) : Unsigned (Operand depth) := by
  induction depth using Nat.strongRecOn with
  | ind depth ih =>
    cases depth with
    | zero => exact fun _ _ he => he.elim
    | succ depth =>
      rw [operand_succ]
      have hoperand := ih depth (Nat.lt_succ_self depth)
      refine signed_unsigned hoperand (expression_unsigned hoperand) ?_
      cases depth with
      | zero => exact fun _ _ he => he.elim
      | succ inner => exact expression_unsigned (ih inner (by omega))

/-! ## Statements -/

/-- Phrases all of whose statements are regular. -/
def Regular (phrase : Phrase Stmt) : Prop := ∀ ⦃ks s⦄, phrase ks s → ∀ x ∈ s.nodes, x.Regular

/-- Phrases that are no declarations. -/
def Undeclared (phrase : Phrase Stmt) : Prop := ∀ ⦃ks s⦄, phrase ks s → s.isDeclaration = false

/-- A variable of type `void` cannot be declared. -/
lemma declaration_regular (h : Unsigned expression) : Regular (Declaration expression) := by
  intro ks s hs
  cases hs with
  | default _ hvalue =>
    rename_i type value name _
    have hvoid : type ≠ .void := by
      rintro rfl
      cases hvalue
    simp only [Stmt.nodes, List.mem_singleton, forall_eq]
    exact ⟨by simp [Stmt.exprs, Expr.Unsigned, Expr.nodes, Expr.isNeg],
      by rintro _ _ _ _ ⟨⟩; exact hvoid, by simp [Stmt.branches], by simp⟩
  | value _ hvoid hvalue =>
    simp only [Stmt.nodes, List.mem_singleton, forall_eq]
    exact ⟨by simpa [Stmt.exprs] using h hvalue, by rintro _ _ _ _ ⟨⟩; exact hvoid,
      by simp [Stmt.branches], by simp⟩

/-- What stands in a block is a declaration or a statement. -/
lemma item_regular (h : Unsigned expression) (hs : Regular statement) :
    Regular (Item expression statement) := by
  intro ks s hitem
  cases hitem with
  | declaration hd => exact declaration_regular h hd
  | statement hst _ => exact hs hst

/-- All that stands in a block is regular. -/
lemma braces_regular (h : Unsigned expression) (hs : Regular statement) {ks : List TokenKind}
    {b : Block} (hb : Braces expression statement ks b) :
    ∀ x ∈ Stmt.nodesAll b.body, x.Regular := by
  cases hb with
  | mk hbody =>
    induction hbody with
    | nil => simp [Stmt.nodesAll]
    | cons hitem _ ih =>
      simpa [Stmt.nodesAll, or_imp, forall_and] using ⟨item_regular h hs hitem, ih⟩

/-- A declaration is none of the forms of a statement. -/
lemma form_undeclared : Undeclared (Form expression statement) := by
  intro ks s hs
  cases hs <;> rfl

/-- Branches and bodies are no declarations, and an `if` in front of `else` is closed. -/
lemma form_regular (h : Unsigned expression) (hs : Regular statement)
    (hu : Undeclared statement) : Regular (Form expression statement) := by
  intro ks s hform
  cases hform with
  | eval he =>
    simp only [Stmt.nodes, List.mem_singleton, forall_eq]
    exact ⟨by simpa [Stmt.exprs] using h he, by simp, by simp [Stmt.branches], by simp⟩
  | block hb =>
    simp only [Stmt.nodes, List.forall_mem_cons]
    exact ⟨⟨by simp [Stmt.exprs], by simp, by simp [Stmt.branches], by simp⟩,
      braces_regular h hs hb⟩
  | ifThen hc ht =>
    simp only [Stmt.nodes, List.forall_mem_cons]
    exact ⟨⟨by simpa [Stmt.exprs] using h hc, by simp, by simpa [Stmt.branches] using hu ht,
      by simp⟩, hs ht⟩
  | ifElse hc ht hclosed he =>
    simp only [Stmt.nodes, List.forall_mem_cons, List.forall_mem_append]
    exact ⟨⟨by simpa [Stmt.exprs] using h hc, by simp,
      by simpa [Stmt.branches] using ⟨hu ht, hu he⟩, by rintro _ _ _ _ ⟨⟩; exact hclosed⟩,
      hs ht, hs he⟩
  | while_ hc hb =>
    simp only [Stmt.nodes, List.forall_mem_cons]
    exact ⟨⟨by simpa [Stmt.exprs] using h hc, by simp, by simpa [Stmt.branches] using hu hb,
      by simp⟩, hs hb⟩
  | returnNone =>
    simp only [Stmt.nodes, List.mem_singleton, forall_eq]
    exact ⟨by simp [Stmt.exprs], by simp, by simp [Stmt.branches], by simp⟩
  | returnSome he =>
    simp only [Stmt.nodes, List.mem_singleton, forall_eq]
    exact ⟨by simpa [Stmt.exprs] using h he, by simp, by simp [Stmt.branches], by simp⟩

/-- No statement that takes a level is a declaration. -/
lemma statement_undeclared (depth : Nat) : Undeclared (Statement depth) := by
  cases depth with
  | zero => exact fun _ _ hs => hs.elim
  | succ depth => exact form_undeclared

/-- **Statements**, by induction over the levels left. -/
lemma statement_regular (depth : Nat) : Regular (Statement depth) := by
  induction depth with
  | zero => exact fun _ _ hs => hs.elim
  | succ depth ih =>
    exact form_regular (expression_unsigned (operand_unsigned depth)) ih
      (statement_undeclared depth)

/-! ## Functions and files -/

/-- All that stands in the body of a function is regular. -/
lemma body_regular {depth : Nat} {ks : List TokenKind} {b : Block} (h : Body depth ks b) :
    ∀ x ∈ Stmt.nodesAll b.body, x.Regular :=
  braces_regular (expression_unsigned (operand_unsigned depth)) (statement_regular depth) h

/-- The text of a function has at most one parameter and does not give a character. -/
lemma functionText_regular {depth : Nat} {ks : List TokenKind} {f : Function}
    (h : FunctionText depth ks f) : f.Regular := by
  cases h with
  | mk hstarts htype hparams hbody =>
    refine ⟨body_regular hbody, by cases hparams <;> simp, ?_⟩
    rintro rfl
    unfold tyOfKind? at htype
    split at htype <;> simp_all [TokenKind.startsFunction]

/-- The form of the function a program starts with. -/
structure StartsProgram (f : Function) : Prop where
  regular : f.Regular
  name : f.name = "main"
  returns : f.returns = .void
  params : f.params = []

/-- The text of `main` has a word of its own and no parameters. -/
lemma mainText_startsProgram {depth : Nat} {ks : List TokenKind} {f : Function}
    (h : MainText depth ks f) : StartsProgram f := by
  cases h with
  | mk hbody => exact ⟨⟨body_regular hbody, by simp, by simp⟩, rfl, rfl, rfl⟩

/-- Whether a function starts the program is told without its spans. -/
lemma StartsProgram.of_bare {f : Function} (h : StartsProgram f.bare) : StartsProgram f where
  regular := .of_bare h.regular
  name := h.name
  returns := h.returns
  params := List.map_eq_nil_iff.1 h.params

/-- The functions of a program are regular, and `main` starts it. -/
lemma sentence_regular {ks : List TokenKind} {p : Program} (h : Sentence ks p) :
    (∀ f ∈ p.functions, f.Regular) ∧ StartsProgram p.main := by
  cases h with
  | mk _ hfunctions hmain =>
    refine ⟨?_, mainText_startsProgram hmain⟩
    clear hmain
    induction hfunctions with
    | nil => simp
    | cons hf _ ih => exact List.forall_mem_cons.2 ⟨functionText_regular hf, ih⟩

/-- What may stand in a library: an import, which gives nothing, or a function. -/
inductive LibraryItem : Phrase (Option Function)
  | import_ {ks : List TokenKind} {i : Import} (h : ImportLine ks i) : LibraryItem ks none
  | function {ks : List TokenKind} {f : Function} (h : FunctionText maxDepth ks f) :
      LibraryItem ks (some f)

/-- What stands in a library is an import or a function. -/
lemma libraryItemRule_sound :
    libraryItemRule.Sound (Option.map Function.bare) LibraryItem := by
  intro ts o rest h
  unfold libraryItemRule at h
  split_ifs at h with hi hf
  · rw [Rule.bind_eq_ok] at h
    obtain ⟨i, _, hr, h⟩ := h
    cases h
    obtain ⟨ks, hks, hline⟩ := importRule_sound hr
    exact ⟨ks, hks, .import_ hline⟩
  · rw [Rule.map_eq_bind, Rule.bind_eq_ok] at h
    obtain ⟨f, _, hr, h⟩ := h
    cases h
    obtain ⟨ks, hks, htext⟩ := functionRule_sound hf hr
    exact ⟨ks, hks, .function htext⟩
  · cases h

/-- The functions of a library are regular. -/
lemma libraryItems_regular {ks : List TokenKind} {items : List (Option Function)}
    (h : Repeated LibraryItem ks items) : ∀ f, some f ∈ items → f.Regular := by
  induction h with
  | nil => simp
  | cons hitem _ ih =>
    intro f hf
    rcases List.mem_cons.1 hf with heq | hf
    · cases hitem with
      | import_ _ => cases heq
      | function htext =>
        cases heq
        exact functionText_regular htext
    · exact ih f hf

/-- So are those that are read from tokens. -/
lemma libraryRule_regular {ts rest : List Token} {fs : List Function}
    (h : libraryRule ts = .ok fs rest) : ∀ f ∈ fs, f.Regular := by
  rw [libraryRule, Rule.bind_eq_ok] at h
  obtain ⟨items, mid, hmany, h⟩ := h
  cases h
  obtain ⟨ks, -, hitems⟩ := Rule.many_sound (fun _ _ _ _ hr => libraryItemRule_sound hr) hmany
  intro f hf
  have hmem : some f ∈ items := by simpa using hf
  exact .of_bare (libraryItems_regular hitems f.bare
    (List.mem_map.2 ⟨some f, hmem, rfl⟩))

/-- **The form of everything that is read.**  In a program or a library that is read from tokens,
whatever these are, the statements are regular and the functions have at most one parameter and
return no `char`; and a program starts with a function `main` that has no parameters and returns
nothing.

**Proof sketch.**  What is read is spelt by the tokens in front of the end of the file, and each
production of the grammar gives a tree of this form if its parts have it. -/
theorem read_regular (tokens : List Token) :
    (∀ p, parseTokens tokens = .ok p →
      (∀ f ∈ p.functions, f.Regular) ∧ p.main.Regular ∧
        p.main.name = "main" ∧ p.main.returns = .void ∧ p.main.params = []) ∧
    ∀ fs, parseLibraryTokens tokens = .ok fs → ∀ f ∈ fs, f.Regular := by
  constructor
  · intro p hp
    obtain ⟨rest, hrule⟩ := Session.read_eq_ok.1 hp
    have hend : .endOfFile ∉ kinds (Session.ofTokens tokens).ahead := by
      intro hmem
      obtain ⟨t, ht, hk⟩ := List.mem_map.1 hmem
      exact Session.kind_ne_of_mem_ahead ht hk
    obtain ⟨hfunctions, hmain⟩ := sentence_regular (programRule_sound hend hrule).1
    have hmain' : StartsProgram p.main := .of_bare hmain
    refine ⟨fun f hf => ?_, hmain'.regular, hmain'.name, hmain'.returns, hmain'.params⟩
    exact .of_bare (hfunctions f.bare (List.mem_map_of_mem hf))
  · intro fs hfs
    obtain ⟨rest, hrule⟩ := Session.read_eq_ok.1 hfs
    exact libraryRule_regular hrule

/-- The tokens of `int function f(int n) { bool b; while (b) if (b) n = -n; else f(n); return n; }`.
-/
def negatingLibrary : List Token :=
  [.keyword .int, .keyword .function, .identifier "f", .punct .lparen, .keyword .int,
   .identifier "n", .punct .rparen, .punct .lbrace,
   .keyword .bool, .identifier "b", .punct .semi,
   .keyword .while_, .punct .lparen, .identifier "b", .punct .rparen,
   .keyword .if_, .punct .lparen, .identifier "b", .punct .rparen,
   .identifier "n", .punct .assign, .punct .minus, .identifier "n", .punct .semi,
   .keyword .else_, .identifier "f", .punct .lparen, .identifier "n", .punct .rparen, .punct .semi,
   .keyword .return_, .identifier "n", .punct .semi, .punct .rbrace].map
    fun k => ⟨k, "", {}, "a.idyl"⟩

/-- A library and a program are read in this form. -/
theorem read_regular_sample :
    (∃ f, parseLibraryTokens negatingLibrary = .ok [f] ∧ f.stmts.length = 6 ∧ f.Regular) ∧
      ∃ p, parseTokens nestedIf = .ok p ∧ p.main.stmts.length = 4 ∧ p.main.Regular := by
  refine ⟨⟨_, rfl, rfl, ?_⟩, ⟨_, rfl, rfl, ?_⟩⟩
  · exact (read_regular negatingLibrary).2 _ rfl _ (List.mem_singleton_self _)
  · exact ((read_regular nestedIf).1 _ rfl).2.1

end Grammar

end Idyl
