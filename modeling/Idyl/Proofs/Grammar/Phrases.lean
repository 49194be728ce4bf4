import Idyl.Grammar.Program
import Idyl.Proofs.Bare
import Idyl.Proofs.Grammar.Reading

/-!
# The grammar of the language

Each kind of phrase is given by its productions: which tokens spell it, out of which phrases.
There is no looking ahead here and no order in which productions are tried; that the rules
find the one tree there is, is a theorem.

Phrases may be nested only so deep.  A kind of phrase that counts carries the number of levels
that are left inside it: each statement takes a level, each operand takes one, and parentheses
take one more.

## Main definitions

* `Idyl.Grammar.Sign`, `Idyl.Grammar.Joined`, `Idyl.Grammar.Binary`, `Idyl.Grammar.Assigned`,
  `Idyl.Grammar.Expression` — expressions over operands.
* `Idyl.Grammar.Primary`, `Idyl.Grammar.Suffixed`, `Idyl.Grammar.Signed`, `Idyl.Grammar.Operand`
  — operands.
* `Idyl.Grammar.Declaration`, `Idyl.Grammar.Item`, `Idyl.Grammar.Braces`, `Idyl.Grammar.Form`,
  `Idyl.Grammar.Statement` — what stands in a block.
* `Idyl.Grammar.SentenceWithin`, `Idyl.Grammar.Sentence` — whole programs.

## Main results

* `Idyl.Grammar.expression_startsWith`, `Idyl.Grammar.item_startsWith` — the tokens that can start
  a phrase.
-/

set_option autoImplicit false

namespace Idyl.Grammar

/-! ## Expressions -/

/-- The signs for operators and their levels, from one for products to six for `or`. -/
inductive Sign : Nat → TokenKind → BinaryOp → Prop
  | mul : Sign 1 (.punct .star) .mul
  | div : Sign 1 (.punct .slash) .div
  | add : Sign 2 (.punct .plus) .add
  | sub : Sign 2 (.punct .minus) .sub
  | lt : Sign 3 (.punct .lt) .lt
  | le : Sign 3 (.punct .le) .le
  | gt : Sign 3 (.punct .gt) .gt
  | ge : Sign 3 (.punct .ge) .ge
  | eq : Sign 4 (.punct .eq) .eq
  | ne : Sign 4 (.punct .ne) .ne
  | and : Sign 5 (.keyword .and) .and
  | or : Sign 6 (.keyword .or) .or

/-- The signs of the grammar are those that the rules read, on the same levels. -/
lemma sign_iff {level : Nat} {k : TokenKind} {op : BinaryOp} :
    Sign level k op ↔ binaryOp? k = some op ∧ op.level = level := by
  constructor
  · rintro (_ | _ | _ | _ | _ | _ | _ | _ | _ | _ | _ | _) <;> exact ⟨rfl, rfl⟩
  · rintro ⟨hop, rfl⟩
    unfold binaryOp? at hop
    split at hop <;> cases hop <;> constructor

/-- Operands joined by operators of one level, which group to the left. -/
inductive Joined (level : Nat) (operand : Phrase Expr) : Phrase Expr
  | single {ks : List TokenKind} {e : Expr} (h : operand ks e) : Joined level operand ks e
  | join {ks ks' : List TokenKind} {k : TokenKind} {op : BinaryOp} {l r : Expr}
      (left : Joined level operand ks l) (sign : Sign level k op) (right : operand ks' r) :
      Joined level operand (ks ++ k :: ks') (.binary op l r {})

/-- Expressions whose operators have at most the given level. -/
def Binary (operand : Phrase Expr) : Nat → Phrase Expr
  | 0 => operand
  | level + 1 => Joined (level + 1) (Binary operand level)

/-- Assignments, which group to the right.  What is assigned to has to be a variable. -/
inductive Assigned (operand : Phrase Expr) : Phrase Expr
  | value {ks : List TokenKind} {e : Expr} (h : operand ks e) : Assigned operand ks e
  | assign {ks ks' : List TokenKind} {x : String} {e : Expr} (target : operand ks (.var x {}))
      (value : Assigned operand ks' e) :
      Assigned operand (ks ++ .punct .assign :: ks') (.assign x e {})

/-- Expressions. -/
def Expression (operand : Phrase Expr) : Phrase Expr :=
  Assigned (Binary operand 6)

/-- Literals, variables, and expressions in parentheses.  The text of a number has to denote
one. -/
inductive Primary (group : Phrase Expr) : Phrase Expr
  | integer {text : String} {n : Int64} (h : readInt? text = some n) :
      Primary group [.integer text] (.lit (.int n) {})
  | float {text : String} {x : Binary64} (h : Binary64.ofText? text = some x) :
      Primary group [.float text] (.lit (.float x) {})
  | string {value : String} : Primary group [.string value] (.lit (.string value) {})
  | char {value : Char} : Primary group [.char value] (.lit (.char value) {})
  | isTrue : Primary group [.keyword .true] (.lit (.bool true) {})
  | isFalse : Primary group [.keyword .false] (.lit (.bool false) {})
  | name {x : String} : Primary group [.identifier x] (.var x {})
  | group {ks : List TokenKind} {e : Expr} (h : group ks e) :
      Primary group (.punct .lparen :: (ks ++ [.punct .rparen])) e

/-- An expression behind a comma. -/
inductive AfterComma (expression : Phrase Expr) : Phrase Expr
  | mk {ks : List TokenKind} {e : Expr} (h : expression ks e) :
      AfterComma expression (.punct .comma :: ks) e

/-- The arguments of a call. -/
inductive Arguments (expression : Phrase Expr) : Phrase (List Expr)
  | none : Arguments expression [] []
  | some {ks ks' : List TokenKind} {e : Expr} {es : List Expr} (first : expression ks e)
      (others : Repeated (AfterComma expression) ks' es) :
      Arguments expression (ks ++ ks') (e :: es)

/-- A phrase followed by calls and member accesses. -/
inductive Suffixed (primary expression : Phrase Expr) : Phrase Expr
  | primary {ks : List TokenKind} {e : Expr} (h : primary ks e) : Suffixed primary expression ks e
  | call {ks ks' : List TokenKind} {f : Expr} {args : List Expr}
      (callee : Suffixed primary expression ks f) (arguments : Arguments expression ks' args) :
      Suffixed primary expression (ks ++ .punct .lparen :: (ks' ++ [.punct .rparen]))
        (.call f args {})
  | member {ks : List TokenKind} {o : Expr} {n : String}
      (object : Suffixed primary expression ks o) :
      Suffixed primary expression (ks ++ [.punct .dot, .identifier n]) (.member o n {})

/-- A phrase with operators in front of it.  A minus sign subtracts from zero. -/
inductive Signed (operand expression group : Phrase Expr) : Phrase Expr
  | negation {ks : List TokenKind} {e : Expr} (h : operand ks e) :
      Signed operand expression group (.keyword .not :: ks) (.unary .not e {})
  | minus {ks : List TokenKind} {e : Expr} (h : operand ks e) :
      Signed operand expression group (.punct .minus :: ks)
        (.binary .sub (.lit (.int 0) {}) e {})
  | plain {ks : List TokenKind} {e : Expr} (h : Suffixed (Primary group) expression ks e) :
      Signed operand expression group ks e

/-- Operands, with the given number of levels left. -/
def Operand : Nat → Phrase Expr
  | 0 => fun _ _ => False
  | depth + 1 =>
    let group : Phrase Expr := match depth with
      | 0 => fun _ _ => False
      | inner + 1 => Expression (Operand inner)
    Signed (Operand depth) (Expression (Operand depth)) group

/-- Expressions in parentheses, with the given number of levels left outside them. -/
def Group : Nat → Phrase Expr
  | 0 => fun _ _ => False
  | depth + 1 => Expression (Operand depth)

/-- An operand with a level left, by what may stand inside it. -/
lemma operand_succ (depth : Nat) :
    Operand (depth + 1) =
      Signed (Operand depth) (Expression (Operand depth)) (Group depth) := by
  cases depth <;> rfl

/-! ## Statements -/

/-- Declarations of variables.  Without a value a variable gets the default of its type, and
there is none of type `void`. -/
inductive Declaration (expression : Phrase Expr) : Phrase Stmt
  | default {k : TokenKind} {t : Ty} {v : Literal} {n : String} (type : tyOfKind? k = some t)
      (value : t.default? = some v) :
      Declaration expression [k, .identifier n, .punct .semi] (.declare t n (.lit v {}) {})
  | value {ks : List TokenKind} {k : TokenKind} {t : Ty} {n : String} {e : Expr}
      (type : tyOfKind? k = some t) (nonvoid : t ≠ .void) (value : expression ks e) :
      Declaration expression
        (k :: .identifier n :: .punct .assign :: (ks ++ [.punct .semi])) (.declare t n e {})

/-- Whether tokens look like a declaration whose type is misspelled: a name and then a name or a
semicolon. -/
def misspelled : List TokenKind → Bool
  | .identifier _ :: .identifier _ :: _ => true
  | .identifier _ :: .punct .semi :: _ => true
  | _ => false

/-- What may stand in a block: a declaration, or a statement that does not look like one. -/
inductive Item (expression : Phrase Expr) (statement : Phrase Stmt) : Phrase Stmt
  | declaration {ks : List TokenKind} {s : Stmt} (h : Declaration expression ks s) :
      Item expression statement ks s
  | statement {ks : List TokenKind} {s : Stmt} (h : statement ks s)
      (clear : misspelled ks = false) : Item expression statement ks s

/-- Blocks. -/
inductive Braces (expression : Phrase Expr) (statement : Phrase Stmt) : Phrase Block
  | mk {ks : List TokenKind} {body : List Stmt} (h : Repeated (Item expression statement) ks body) :
      Braces expression statement (.punct .lbrace :: (ks ++ [.punct .rbrace])) ⟨body, {}⟩

/-- The forms of statements.  In front of `else` no statement may stand that an `else` could
belong to, so an `else` belongs to the nearest `if`. -/
inductive Form (expression : Phrase Expr) (statement : Phrase Stmt) : Phrase Stmt
  | eval {ks : List TokenKind} {e : Expr} (h : expression ks e) :
      Form expression statement (ks ++ [.punct .semi]) (.eval e {})
  | block {ks : List TokenKind} {b : Block} (h : Braces expression statement ks b) :
      Form expression statement ks (.block b.body {})
  | ifThen {ks ks' : List TokenKind} {c : Expr} {s : Stmt} (condition : expression ks c)
      (thenBranch : statement ks' s) :
      Form expression statement
        (.keyword .if_ :: .punct .lparen :: (ks ++ .punct .rparen :: ks')) (.ifThen c s {})
  | ifElse {ks ks₁ ks₂ : List TokenKind} {c : Expr} {s t : Stmt} (condition : expression ks c)
      (thenBranch : statement ks₁ s) (closed : s.endsOpen = false)
      (elseBranch : statement ks₂ t) :
      Form expression statement
        (.keyword .if_ :: .punct .lparen ::
          (ks ++ .punct .rparen :: (ks₁ ++ .keyword .else_ :: ks₂))) (.ifElse c s t {})
  | while_ {ks ks' : List TokenKind} {c : Expr} {s : Stmt} (condition : expression ks c)
      (body : statement ks' s) :
      Form expression statement
        (.keyword .while_ :: .punct .lparen :: (ks ++ .punct .rparen :: ks')) (.while_ c s {})
  | returnNone : Form expression statement [.keyword .return_, .punct .semi] (.return_ none {})
  | returnSome {ks : List TokenKind} {e : Expr} (h : expression ks e) :
      Form expression statement (.keyword .return_ :: (ks ++ [.punct .semi]))
        (.return_ (some e) {})

/-- Statements, with the given number of levels left. -/
def Statement : Nat → Phrase Stmt
  | 0 => fun _ _ => False
  | depth + 1 => Form (Expression (Operand depth)) (Statement depth)

/-! ## Programs -/

/-- The body of a function, with the given number of levels inside. -/
def Body (depth : Nat) : Phrase Block :=
  Braces (Expression (Operand depth)) (Statement depth)

/-- Imports. -/
inductive ImportLine : Phrase Import
  | mk {n : String} : ImportLine [.keyword .use, .identifier n, .punct .semi] ⟨n, {}⟩

/-- The parameters of a function: none, or one. -/
inductive Parameters : Phrase (List Param)
  | none : Parameters [] []
  | one {k : TokenKind} {t : Ty} {n : String} (type : tyOfKind? k = some t) :
      Parameters [k, .identifier n] [⟨t, n, {}⟩]

/-- Functions.  They return `void`, `int`, `float`, `string` or `bool`. -/
inductive FunctionText (depth : Nat) : Phrase Function
  | mk {ks ks' : List TokenKind} {k : TokenKind} {t : Ty} {n : String} {ps : List Param} {b : Block}
      (starts : k.startsFunction = true) (returns : tyOfKind? k = some t)
      (params : Parameters ks ps) (body : Body depth ks' b) :
      FunctionText depth
        (k :: .keyword .function :: .identifier n :: .punct .lparen ::
          (ks ++ .punct .rparen :: ks')) ⟨n, t, ps, b, {}⟩

/-- The function a program starts with. -/
inductive MainText (depth : Nat) : Phrase Function
  | mk {ks : List TokenKind} {b : Block} (body : Body depth ks b) :
      MainText depth (.keyword .main :: .punct .lparen :: .punct .rparen :: ks)
        ⟨"main", .void, [], b, {}⟩

/-- Programs, with the given number of levels inside each function, up to the end of the file.
Of the file itself nothing is said. -/
inductive SentenceWithin (depth : Nat) : Phrase Program
  | mk {ks₁ ks₂ ks₃ : List TokenKind} {is : List Import} {fs : List Function} {m : Function}
      {file : String} (imports : Repeated ImportLine ks₁ is)
      (functions : Repeated (FunctionText depth) ks₂ fs) (main : MainText depth ks₃ m) :
      SentenceWithin depth (ks₁ ++ (ks₂ ++ (ks₃ ++ [.endOfFile]))) ⟨is, fs, m, file⟩

/-- Programs: the sentences of the language. -/
def Sentence : Phrase Program := SentenceWithin maxDepth

/-! ## First tokens -/

/-- Whether a token can start an operand that has no operator in front of it. -/
def opensPrimary : TokenKind → Bool
  | .integer _ | .float _ | .string _ | .char _ | .identifier _ => true
  | .keyword .true | .keyword .false | .punct .lparen => true
  | _ => false

/-- Whether a token can start an expression. -/
def opensExpr : TokenKind → Bool
  | .keyword .not | .punct .minus => true
  | k => opensPrimary k

/-- Whether a token can start a statement. -/
def opensStmt : TokenKind → Bool
  | .keyword .if_ | .keyword .while_ | .keyword .return_ | .punct .lbrace => true
  | k => opensExpr k

/-- Whether a token can start what stands in a block. -/
def opensItem (k : TokenKind) : Bool := opensStmt k || k.isTypeName

/-- A token that can start a primary phrase can start an expression. -/
lemma opensExpr_of_opensPrimary {k : TokenKind} (h : opensPrimary k = true) :
    opensExpr k = true := by
  unfold opensExpr
  split <;> first | rfl | exact h

/-- A token that can start an expression can start a statement. -/
lemma opensStmt_of_opensExpr {k : TokenKind} (h : opensExpr k = true) : opensStmt k = true := by
  unfold opensStmt
  split <;> first | rfl | exact h

/-- A token that stands for a type names one. -/
lemma isTypeName_of_tyOfKind? {k : TokenKind} {t : Ty} (h : tyOfKind? k = some t) :
    k.isTypeName = true := by
  unfold tyOfKind? at h
  split at h <;> first | rfl | simp at h

variable {operand expression group primary : Phrase Expr} {statement : Phrase Stmt}
  {test : TokenKind → Bool} {level : Nat}

/-- Operands that are joined start like the first one. -/
lemma joined_startsWith (h : operand.StartsWith test) :
    (Joined level operand).StartsWith test := by
  intro ks e he
  induction he with
  | single he => exact h he
  | join _ _ _ ih =>
    obtain ⟨k, ks', rfl, hk⟩ := ih
    exact ⟨k, _, rfl, hk⟩

/-- Expressions of any level start like an operand. -/
lemma binary_startsWith (h : operand.StartsWith test) :
    (Binary operand level).StartsWith test := by
  induction level with
  | zero => exact h
  | succ level ih => exact joined_startsWith ih

/-- An expression starts as its operands do. -/
lemma expression_startsWith (h : operand.StartsWith test) :
    (Expression operand).StartsWith test := by
  intro ks e he
  cases he with
  | value he => exact binary_startsWith h he
  | assign ht _ =>
    obtain ⟨k, ks', rfl, hk⟩ := binary_startsWith h ht
    exact ⟨k, _, rfl, hk⟩

/-- The tokens that can start a primary phrase. -/
lemma primary_startsWith : (Primary group).StartsWith opensPrimary := by
  intro ks e he
  cases he <;> exact ⟨_, _, rfl, rfl⟩

/-- Calls and members start like what they follow. -/
lemma suffixed_startsWith (h : primary.StartsWith test) :
    (Suffixed primary expression).StartsWith test := by
  intro ks e he
  induction he with
  | primary he => exact h he
  | call _ _ ih | member _ ih =>
    obtain ⟨k, ks', rfl, hk⟩ := ih
    exact ⟨k, _, rfl, hk⟩

/-- The tokens that can start an operand. -/
lemma signed_startsWith : (Signed operand expression group).StartsWith opensExpr := by
  intro ks e he
  cases he with
  | negation _ => exact ⟨_, _, rfl, rfl⟩
  | minus _ => exact ⟨_, _, rfl, rfl⟩
  | plain he =>
    obtain ⟨k, ks', rfl, hk⟩ := suffixed_startsWith primary_startsWith he
    exact ⟨k, ks', rfl, opensExpr_of_opensPrimary hk⟩

/-- Operands of any depth start so. -/
lemma operand_startsWith (depth : Nat) : (Operand depth).StartsWith opensExpr := by
  intro ks e he
  cases depth with
  | zero => exact he.elim
  | succ depth =>
    rw [operand_succ] at he
    exact signed_startsWith he

/-- The tokens that can start a statement. -/
lemma form_startsWith (h : expression.StartsWith opensExpr) :
    (Form expression statement).StartsWith opensStmt := by
  intro ks s hs
  cases hs with
  | eval he =>
    obtain ⟨k, ks', rfl, hk⟩ := h he
    exact ⟨k, _, rfl, opensStmt_of_opensExpr hk⟩
  | block hb => cases hb; exact ⟨_, _, rfl, rfl⟩
  | ifThen | ifElse | while_ | returnNone | returnSome => exact ⟨_, _, rfl, rfl⟩

/-- Statements of any depth start so. -/
lemma statement_startsWith (depth : Nat) : (Statement depth).StartsWith opensStmt := by
  intro ks s hs
  cases depth with
  | zero => exact hs.elim
  | succ depth => exact form_startsWith (expression_startsWith (operand_startsWith depth)) hs

/-- What stands in a block starts as a statement or with the name of a type. -/
lemma item_startsWith (h : statement.StartsWith opensStmt) :
    (Item expression statement).StartsWith opensItem := by
  intro ks s hs
  cases hs with
  | declaration hd =>
    cases hd with
    | default ht _ => exact ⟨_, _, rfl, by simp [opensItem, isTypeName_of_tyOfKind? ht]⟩
    | value ht _ _ => exact ⟨_, _, rfl, by simp [opensItem, isTypeName_of_tyOfKind? ht]⟩
  | statement hs _ =>
    obtain ⟨k, ks', rfl, hk⟩ := h hs
    exact ⟨k, _, rfl, by simp [opensItem, hk]⟩

end Idyl.Grammar
