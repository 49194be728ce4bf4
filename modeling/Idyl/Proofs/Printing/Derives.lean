import Idyl.Proofs.Grammar.Phrases
import Idyl.Proofs.Printing.Printer

/-!
# Printed tokens spell the program

The tokens that a tree is printed by are spelt according to the grammar, and they spell this tree.
The grammar nests phrases in levels, so one first has to say how many levels the printed tokens
take: a statement takes one, an operand takes one, and parentheses take two.

Expressions are phrases of different ranks.  A phrase of some rank is also one of every looser
rank, and in parentheses it is one of the tightest rank; so an operand is of the rank that its
place asks for, with parentheses or without.

## Main definitions

* `Idyl.Expr.levels`, `Idyl.Stmt.levels`, `Idyl.Function.levels` — the levels that printed phrases
  take.
* `Idyl.Ranked` — phrases of a given rank.

## Main results

* `Idyl.ranked_tokens` — a printed expression is a phrase of its rank.
* `Idyl.statement_tokens` — a printed statement is a statement.
* `Idyl.sentenceWithin_tokens` — a printed program is a sentence.
* `Idyl.Function.levels_le` — levels are at most twice the height.
-/

set_option autoImplicit false

namespace Idyl

open Grammar

/-! ## Levels -/

/-- The levels of an operand: parentheses take two more. -/
def bracketLevels (needed : Bool) (levels : Nat) : Nat := if needed then levels + 2 else levels

mutual

/-- The levels that an expression takes when it is printed. -/
def Expr.levels : Expr → Nat
  | .lit .. | .var .. => 1
  | .assign _ value _ => max 1 value.levels
  | .binary op left right _ =>
    max (bracketLevels (op.rank < left.rank) left.levels)
      (bracketLevels (op.rank ≤ right.rank) right.levels)
  | .unary _ operand _ => bracketLevels (1 < operand.rank) operand.levels + 1
  | .call callee args _ =>
    max (bracketLevels (0 < callee.rank) callee.levels) (Expr.levelsAll args + 1)
  | .member object _ _ => bracketLevels (0 < object.rank) object.levels

/-- The levels that the arguments of a call take. -/
def Expr.levelsAll : List Expr → Nat
  | [] => 0
  | e :: es => max e.levels (Expr.levelsAll es)

end

/-- The levels of a statement of a block.  A variable is put in parentheses, which take two
levels more. -/
def itemLevels (s : Stmt) (levels : Nat) : Nat :=
  match s with
  | .eval (.var ..) _ => levels + 2
  | _ => levels

mutual

/-- The levels that a statement takes when it is printed. -/
def Stmt.levels : Stmt → Nat
  | .declare _ _ init _ => init.levels
  | .eval e _ => e.levels + 1
  | .block body _ => Stmt.levelsAll body + 1
  | .ifThen condition thenBranch _ => max condition.levels thenBranch.levels + 1
  | .ifElse condition thenBranch elseBranch _ =>
    max condition.levels (max thenBranch.levels elseBranch.levels) + 1
  | .while_ condition body _ => max condition.levels body.levels + 1
  | .return_ none _ => 1
  | .return_ (some e) _ => e.levels + 1

/-- The levels that the statements of a block take. -/
def Stmt.levelsAll : List Stmt → Nat
  | [] => 0
  | s :: ss => max (itemLevels s s.levels) (Stmt.levelsAll ss)

end

/-- The levels that the body of a function takes. -/
def Function.levels (f : Function) : Nat := Stmt.levelsAll f.body.body

/-! ## Ranks -/

/-- Phrases of a rank: chains of calls and members, expressions up to a level of operators, and
all expressions. -/
def Ranked (depth : Nat) : Nat → Phrase Expr
  | 0 => match depth with
    | 0 => fun _ _ => False
    | inner + 1 => Suffixed (Primary (Group inner)) (Expression (Operand inner))
  | rank + 1 =>
    if rank ≤ 6 then Binary (Operand depth) rank else Expression (Operand depth)

section Ranks

variable {depth limit : Nat} {ks : List TokenKind} {e : Expr}

/-- The ranks of the levels of operators. -/
lemma ranked_succ {level : Nat} (h : level ≤ 6) :
    Ranked depth (level + 1) = Binary (Operand depth) level := by
  rw [Ranked, if_pos h]

/-- The loosest rank is that of all expressions. -/
lemma ranked_loosest : Ranked depth 8 = Expression (Operand depth) := by
  rw [Ranked, if_neg (by omega)]

/-- A phrase of one rank is a phrase of the next looser one. -/
lemma Ranked.succ {rank : Nat} (h : Ranked depth rank ks e) : Ranked depth (rank + 1) ks e := by
  cases rank with
  | zero =>
    cases depth with
    | zero => exact h.elim
    | succ inner =>
      have hoperand : Operand (inner + 1) ks e := by
        rw [operand_succ]
        exact .plain h
      exact hoperand
  | succ rank =>
    by_cases hrank : rank + 1 ≤ 6
    · rw [ranked_succ (by omega)] at h
      rw [ranked_succ hrank]
      exact .single h
    · rw [Ranked, if_neg hrank]
      by_cases hlast : rank ≤ 6
      · obtain rfl : rank = 6 := by omega
        rw [ranked_succ hlast] at h
        exact .value h
      · rwa [Ranked, if_neg hlast] at h

/-- A phrase of one rank is a phrase of all looser ones. -/
lemma Ranked.mono {rank : Nat} (h : Ranked depth rank ks e) (hle : rank ≤ limit) :
    Ranked depth limit ks e := by
  induction hle with
  | refl => exact h
  | step _ ih => exact ih.succ

/-- A phrase of any rank is an expression. -/
lemma Ranked.expression {rank : Nat} (h : Ranked depth rank ks e)
    (hrank : rank ≤ 8) : Expression (Operand depth) ks e := by
  rw [← ranked_loosest]
  exact h.mono hrank

/-- A phrase in parentheses is of the tightest rank. -/
lemma Ranked.group {rank : Nat} (h : Ranked depth rank ks e)
    (hrank : rank ≤ 8) :
    Ranked (depth + 2) 0 (bracket true ks) e :=
  .primary (.group (h.expression hrank))

/-- A name is of the tightest rank. -/
lemma ranked_name (name : String) (h : 1 ≤ depth) :
    Ranked depth 0 [.identifier name] (.var name {}) := by
  obtain ⟨inner, rfl⟩ := Nat.exists_eq_add_of_le' (by omega : 1 ≤ depth)
  exact .primary .name

end Ranks

/-- No rank is looser than that of an assignment. -/
lemma Expr.rank_le (e : Expr) : e.rank ≤ 8 := by
  cases e with
  | binary op => cases op <;> simp [rank, BinaryOp.rank]
  | _ => simp [rank]

/-! ## Expressions -/

/-- An operand is of the rank that its place asks for, with parentheses if need be. -/
lemma Ranked.bracket {e : Expr} {limit : Nat}
    (h : ∀ depth, e.levels ≤ depth → Ranked depth e.rank e.tokens e.bare) {depth : Nat}
    (hdepth : bracketLevels (limit < e.rank) e.levels ≤ depth) :
    Ranked depth limit (bracket (limit < e.rank) e.tokens) e.bare := by
  by_cases hlimit : limit < e.rank
  · simp only [hlimit, decide_true, bracketLevels, if_true] at hdepth ⊢
    obtain ⟨inner, rfl⟩ := Nat.exists_eq_add_of_le' (by omega : 2 ≤ depth)
    exact ((h inner (by omega)).group e.rank_le).mono (Nat.zero_le _)
  · simp only [hlimit, decide_false, bracketLevels, Bool.false_eq_true, if_false] at hdepth ⊢
    exact (h depth hdepth).mono (Nat.le_of_not_lt hlimit)

/-- A literal that can be printed is read from its token. -/
lemma primary_literal {group : Phrase Expr} {value : Literal} (h : value.Printable) :
    Primary group [value.token] (.lit value {}) := by
  cases value with
  | int n =>
    have hn : 0 ≤ n.toInt := h
    have hlt : n.toInt.toNat < 2 ^ 63 := by
      have := n.toInt_lt
      omega
    refine .integer ?_
    have hofNat : Int64.ofNat n.toInt.toNat = n := by
      apply Int64.toInt_inj.1
      rw [Int64.toInt_ofNat_of_lt hlt]
      omega
    rw [readInt?_toDigits hlt, hofNat]
  | float x => exact .float (Binary64.ofText?_exactText h)
  | bool b => cases b <;> first | exact .isTrue | exact .isFalse
  | string value => exact .string
  | char value => exact .char

/-- The token of an operator is its sign, and its rank is one more than its level, which is one of
six. -/
lemma BinaryOp.exists_sign (op : BinaryOp) :
    ∃ level < 6, op.rank = level + 2 ∧ Sign (level + 1) op.token op := by
  cases op with
  | mul => exact ⟨0, by decide, rfl, .mul⟩
  | div => exact ⟨0, by decide, rfl, .div⟩
  | add => exact ⟨1, by decide, rfl, .add⟩
  | sub => exact ⟨1, by decide, rfl, .sub⟩
  | lt => exact ⟨2, by decide, rfl, .lt⟩
  | le => exact ⟨2, by decide, rfl, .le⟩
  | gt => exact ⟨2, by decide, rfl, .gt⟩
  | ge => exact ⟨2, by decide, rfl, .ge⟩
  | eq => exact ⟨3, by decide, rfl, .eq⟩
  | ne => exact ⟨3, by decide, rfl, .ne⟩
  | and => exact ⟨4, by decide, rfl, .and⟩
  | or => exact ⟨5, by decide, rfl, .or⟩

/-- Expressions behind commas are arguments, without the first comma. -/
lemma arguments_of_repeated {expression : Phrase Expr} {ks : List TokenKind} {es : List Expr}
    (h : Repeated (AfterComma expression) ks es) : Arguments expression ks.tail es := by
  cases h with
  | nil => exact .none
  | cons head tail =>
    cases head with
    | mk he => exact .some he tail

mutual

/-- **A printed expression is a phrase of its rank**, and it spells the expression.

**Proof sketch.** By recursion on the expression.  Each operand is a phrase of its own rank, and
thereby of the rank that its place asks for (`Ranked.bracket`). -/
lemma ranked_tokens : ∀ (e : Expr), e.Printable → ∀ depth, e.levels ≤ depth →
    Ranked depth e.rank e.tokens e.bare
  | .lit value _, h, depth, hdepth => by
    rw [Expr.levels] at hdepth
    obtain ⟨inner, rfl⟩ := Nat.exists_eq_add_of_le' (by omega : 1 ≤ depth)
    rw [Expr.tokens, Expr.bare, Expr.rank]
    exact .primary (primary_literal h)
  | .var name _, _, depth, hdepth => by
    rw [Expr.levels] at hdepth
    rw [Expr.tokens, Expr.bare, Expr.rank]
    exact ranked_name name hdepth
  | .assign name value _, h, depth, hdepth => by
    rw [Expr.levels] at hdepth
    rw [Expr.tokens, Expr.bare, Expr.rank, ranked_loosest]
    have htarget := (ranked_name name (by omega : 1 ≤ depth)).mono
      (Nat.zero_le 7)
    rw [ranked_succ (Nat.le_refl _)] at htarget
    have hvalue := (ranked_tokens value h.2 depth (by omega)).expression value.rank_le
    exact .assign htarget hvalue
  | .binary op left right _, h, depth, hdepth => by
    obtain ⟨level, hlevel, hrank, hsign⟩ := op.exists_sign
    rw [Expr.levels, hrank] at hdepth
    rw [Expr.tokens, Expr.bare, Expr.rank, hrank]
    have hleft : Ranked depth (level + 2) (bracket (level + 2 < left.rank) left.tokens) left.bare :=
      .bracket (ranked_tokens left h.1) (Nat.le_trans (Nat.le_max_left _ _) hdepth)
    have hright :
        Ranked depth (level + 1) (bracket (level + 1 < right.rank) right.tokens) right.bare :=
      .bracket (ranked_tokens right h.2) (Nat.le_trans (Nat.le_max_right _ _) hdepth)
    rw [ranked_succ (by omega)] at hleft hright ⊢
    exact .join hleft hsign hright
  | .unary op operand _, h, depth, hdepth => by
    rw [Expr.levels] at hdepth
    rw [Expr.tokens, Expr.bare, Expr.rank, h.1]
    obtain ⟨inner, rfl⟩ := Nat.exists_eq_add_of_le' (by omega : 1 ≤ depth)
    have hoperand := Ranked.bracket (ranked_tokens operand h.2) (Nat.le_of_succ_le_succ hdepth)
    rw [ranked_succ (Nat.zero_le _)] at hoperand ⊢
    rw [Binary, operand_succ]
    exact .negation hoperand
  | .call callee args _, h, depth, hdepth => by
    rw [Expr.levels] at hdepth
    rw [Expr.tokens, Expr.bare, Expr.rank]
    obtain ⟨inner, rfl⟩ := Nat.exists_eq_add_of_le' (by omega : 1 ≤ depth)
    have hcallee :=
      Ranked.bracket (ranked_tokens callee h.1) (Nat.le_trans (Nat.le_max_left _ _) hdepth)
    exact .call hcallee (arguments_of_repeated (afterComma_tokens args h.2 inner (by omega)))
  | .member object name _, h, depth, hdepth => by
    rw [Expr.levels] at hdepth
    rw [Expr.tokens, Expr.bare, Expr.rank]
    have hobject := Ranked.bracket (ranked_tokens object h.1) hdepth
    cases depth with
    | zero => exact hobject.elim
    | succ inner => exact .member hobject

/-- **Printed arguments** are expressions behind commas. -/
lemma afterComma_tokens : ∀ (es : List Expr), Expr.AllPrintable es →
    ∀ depth, Expr.levelsAll es ≤ depth →
      Repeated (AfterComma (Expression (Operand depth))) (Expr.commaTokens es) (Expr.bareAll es)
  | [], _, _, _ => .nil
  | e :: es, h, depth, hdepth => by
    rw [Expr.levelsAll] at hdepth
    rw [Expr.commaTokens, Expr.bareAll]
    have he := (ranked_tokens e h.1 depth (by omega)).expression e.rank_le
    exact .cons (.mk he) (afterComma_tokens es h.2 depth (by omega))

end

/-! ## Statements -/

/-- Whether a token behind a name makes clear that no declaration was meant. -/
def followsName : TokenKind → Bool
  | .identifier _ | .punct .semi => false
  | _ => true

/-- A name followed by what may follow one is no misspelled type. -/
lemma misspelled_name {name : String} {k : TokenKind} (h : followsName k = true)
    (ks : List TokenKind) : misspelled (.identifier name :: k :: ks) = false := by
  unfold misspelled
  split
  · simp_all [followsName]
  · simp_all [followsName]
  · rfl

/-- An operand does not look like a declaration, if something follows that makes this clear. -/
lemma misspelled_bracket {e : Expr}
    (h : (∃ name s, e = .var name s) ∨ ∀ ks, misspelled (e.tokens ++ ks) = false)
    {k : TokenKind} (hk : followsName k = true) (needed : Bool) (ks : List TokenKind) :
    misspelled (bracket needed e.tokens ++ k :: ks) = false := by
  cases needed with
  | true => rfl
  | false =>
    rcases h with ⟨name, s, rfl⟩ | h
    · exact misspelled_name hk ks
    · exact h _

/-- No printed expression but a variable looks like the start of a declaration. -/
lemma misspelled_tokens : ∀ (e : Expr),
    (∃ name s, e = .var name s) ∨ ∀ ks, misspelled (e.tokens ++ ks) = false
  | .lit value _ => .inr fun ks => by
    rw [Expr.tokens]
    cases value with
    | bool b => cases b <;> rfl
    | _ => rfl
  | .var name s => .inl ⟨name, s, rfl⟩
  | .assign .. => .inr fun ks => by
    rw [Expr.tokens]
    rfl
  | .binary op left right _ => .inr fun ks => by
    rw [Expr.tokens, List.append_assoc]
    exact misspelled_bracket (misspelled_tokens left) (by cases op <;> rfl) _ _
  | .unary op operand _ => .inr fun ks => by
    rw [Expr.tokens]
    cases op <;> rfl
  | .call callee args _ => .inr fun ks => by
    rw [Expr.tokens, List.append_assoc]
    exact misspelled_bracket (misspelled_tokens callee) rfl _ _
  | .member object name _ => .inr fun ks => by
    rw [Expr.tokens, List.append_assoc]
    exact misspelled_bracket (misspelled_tokens object) rfl _ _

/-- The token of a type names it. -/
lemma tyOfKind?_token (t : Ty) : tyOfKind? t.token = some t := by
  cases t <;> rfl

/-- A printed expression is an expression. -/
lemma expression_tokens {e : Expr} (h : e.Printable) {depth : Nat} (hdepth : e.levels ≤ depth) :
    Expression (Operand depth) e.tokens e.bare :=
  (ranked_tokens e h depth hdepth).expression e.rank_le

/-- What is printed for a block is what may stand in a block. -/
lemma item_tokens {s : Stmt} (h : ItemPrintable s s.Printable)
    (hs : s.Printable → ∀ depth, s.levels ≤ depth → Statement depth s.tokens s.bare)
    {depth : Nat} (hdepth : itemLevels s s.levels ≤ depth) :
    Item (Expression (Operand depth)) (Statement depth) (asItem s s.tokens) s.bare := by
  cases s with
  | declare type name init span =>
    obtain ⟨hvoid, -, hinit⟩ := h
    have hlevels : init.levels ≤ depth := by simpa only [itemLevels, Stmt.levels] using hdepth
    rw [asItem, Stmt.tokens, Stmt.bare]
    · exact .declaration (.value (tyOfKind?_token type) hvoid (expression_tokens hinit hlevels))
    · simp
  | eval e span =>
    cases e with
    | var name =>
      -- a variable takes four levels: the statement, the operand, and two for the parentheses
      obtain ⟨inner, rfl⟩ : ∃ inner, depth = inner + 4 :=
        ⟨depth - 4, by simp only [itemLevels, Stmt.levels, Expr.levels] at hdepth; omega⟩
      have hgroup := (ranked_name name (Nat.le_add_left 1 inner)).group (Nat.zero_le _)
      rw [asItem, Stmt.bare, Expr.bare]
      exact .statement (.eval (hgroup.expression (Nat.zero_le _))) rfl
    | lit | assign | binary | unary | call | member =>
      refine .statement (hs h depth hdepth) ?_
      rw [Stmt.tokens]
      exact (misspelled_tokens _).resolve_left (by simp) _
  | block | ifThen | ifElse | while_ =>
    refine .statement (hs h depth hdepth) ?_
    rw [Stmt.tokens]
    rfl
  | return_ value =>
    refine .statement (hs h depth hdepth) ?_
    cases value <;> rw [Stmt.tokens] <;> rfl

mutual

/-- **A printed statement is a statement**, and it spells the statement.

**Proof sketch.** By recursion on the statement, one production a form. -/
lemma statement_tokens : ∀ (s : Stmt), s.Printable → ∀ depth, s.levels ≤ depth →
    Statement depth s.tokens s.bare
  | .declare .., h, _, _ => h.elim
  | .eval e _, h, depth, hdepth => by
    rw [Stmt.levels] at hdepth
    obtain ⟨inner, rfl⟩ := Nat.exists_eq_add_of_le' (by omega : 1 ≤ depth)
    rw [Stmt.tokens, Stmt.bare]
    exact .eval (expression_tokens h (by omega))
  | .block body _, h, depth, hdepth => by
    rw [Stmt.levels] at hdepth
    obtain ⟨inner, rfl⟩ := Nat.exists_eq_add_of_le' (by omega : 1 ≤ depth)
    rw [Stmt.tokens, Stmt.bare]
    exact .block (.mk (items_tokens body h inner (by omega)))
  | .ifThen condition thenBranch _, h, depth, hdepth => by
    rw [Stmt.levels] at hdepth
    obtain ⟨inner, rfl⟩ := Nat.exists_eq_add_of_le' (by omega : 1 ≤ depth)
    rw [Stmt.tokens, Stmt.bare]
    exact .ifThen (expression_tokens h.1 (by omega))
      (statement_tokens thenBranch h.2 inner (by omega))
  | .ifElse condition thenBranch elseBranch _, h, depth, hdepth => by
    obtain ⟨hcondition, hthen, hclosed, helse⟩ := h
    rw [Stmt.levels] at hdepth
    obtain ⟨inner, rfl⟩ := Nat.exists_eq_add_of_le' (by omega : 1 ≤ depth)
    rw [Stmt.tokens, Stmt.bare]
    exact .ifElse (expression_tokens hcondition (by omega))
      (statement_tokens thenBranch hthen inner (by omega)) (by rwa [Stmt.endsOpen_bare])
      (statement_tokens elseBranch helse inner (by omega))
  | .while_ condition body _, h, depth, hdepth => by
    rw [Stmt.levels] at hdepth
    obtain ⟨inner, rfl⟩ := Nat.exists_eq_add_of_le' (by omega : 1 ≤ depth)
    rw [Stmt.tokens, Stmt.bare]
    exact .while_ (expression_tokens h.1 (by omega)) (statement_tokens body h.2 inner (by omega))
  | .return_ none _, _, depth, hdepth => by
    rw [Stmt.levels] at hdepth
    obtain ⟨inner, rfl⟩ := Nat.exists_eq_add_of_le' (by omega : 1 ≤ depth)
    rw [Stmt.tokens, Stmt.bare]
    exact .returnNone
  | .return_ (some e) _, h, depth, hdepth => by
    rw [Stmt.levels] at hdepth
    obtain ⟨inner, rfl⟩ := Nat.exists_eq_add_of_le' (by omega : 1 ≤ depth)
    rw [Stmt.tokens, Stmt.bare]
    exact .returnSome (expression_tokens h (by omega))

/-- **Printed statements** stand in a block one after the other. -/
lemma items_tokens : ∀ (ss : List Stmt), Stmt.ItemsPrintable ss →
    ∀ depth, Stmt.levelsAll ss ≤ depth →
      Repeated (Item (Expression (Operand depth)) (Statement depth)) (Stmt.itemTokens ss)
        (Stmt.bareAll ss)
  | [], _, _, _ => .nil
  | s :: ss, h, depth, hdepth => by
    rw [Stmt.levelsAll] at hdepth
    rw [Stmt.itemTokens, Stmt.bareAll]
    exact .cons (item_tokens h.1 (statement_tokens s) (by omega))
      (items_tokens ss h.2 depth (by omega))

end

/-! ## Programs -/

/-- A printed block is the body of a function. -/
lemma body_tokens {b : Block} (h : Stmt.ItemsPrintable b.body) {depth : Nat}
    (hdepth : Stmt.levelsAll b.body ≤ depth) : Body depth b.tokens b.bare := by
  rw [Block.tokens, Block.bare, ← Stmt.bareAll_eq_map]
  exact .mk (items_tokens b.body h depth hdepth)

/-- All types but `char` can start a function. -/
lemma startsFunction_token {t : Ty} (h : t ≠ .char) : t.token.startsFunction = true := by
  cases t <;> first | rfl | exact absurd rfl h

/-- At most one parameter is printed. -/
lemma parameters_tokens {ps : List Param} (h : ps.length ≤ 1) :
    Parameters (ps.flatMap Param.tokens) (ps.map Param.bare) := by
  match ps, h with
  | [], _ => exact .none
  | [p], _ => exact .one (tyOfKind?_token p.type)

/-- A printed function is the text of one. -/
lemma functionText_tokens {f : Function} (h : f.Printable) {depth : Nat}
    (hdepth : f.levels ≤ depth) : FunctionText depth f.tokens f.bare :=
  .mk (startsFunction_token h.returns) (tyOfKind?_token f.returns) (parameters_tokens h.count)
    (body_tokens h.body hdepth)

/-- A printed `main` is the text of one. -/
lemma mainText_tokens {f : Function} (h : f.MainPrintable) {depth : Nat}
    (hdepth : f.levels ≤ depth) : MainText depth f.mainTokens f.bare := by
  have hbody := body_tokens h.body hdepth
  obtain ⟨name, returns, params, body, span⟩ := f
  obtain ⟨rfl, rfl, rfl, -⟩ := h
  exact .mk hbody

/-- Phrases printed one after the other are repeated phrases. -/
lemma repeated_flatMap {α β : Type} {R : Phrase β} {tokens : α → List TokenKind} {bare : α → β}
    {as : List α} (h : ∀ a ∈ as, R (tokens a) (bare a)) :
    Repeated R (as.flatMap tokens) (as.map bare) := by
  induction as with
  | nil => exact .nil
  | cons a as ih =>
    exact .cons (h a List.mem_cons_self) (ih fun a' ha' => h a' (List.mem_cons_of_mem a ha'))

/-- **A printed program is a sentence**, and it spells the program. -/
lemma sentenceWithin_tokens {p : Program} (h : p.Printable) {depth : Nat}
    (hdepth : ∀ f ∈ p.allFunctions, f.levels ≤ depth) :
    SentenceWithin depth (p.tokens ++ [.endOfFile]) p.bare := by
  have himports : Repeated ImportLine (p.imports.flatMap Import.tokens)
      (p.imports.map Import.bare) := repeated_flatMap fun _ _ => .mk
  have hfunctions : Repeated (FunctionText depth) (p.functions.flatMap Function.tokens)
      (p.functions.map Function.bare) :=
    repeated_flatMap fun f hf =>
      functionText_tokens (h.functions f hf) (hdepth f (by simp [Program.allFunctions, hf]))
  have hmain := mainText_tokens h.main (hdepth p.main (by simp [Program.allFunctions]))
  rw [Program.tokens, List.append_assoc, List.append_assoc]
  exact .mk himports hfunctions hmain

/-! ## Levels and height -/

/-- Parentheses stay in a bound that leaves room for them. -/
lemma bracketLevels_le {needed : Bool} {levels bound : Nat} (h : levels ≤ bound)
    (hneeded : needed = true → levels + 2 ≤ bound) : bracketLevels needed levels ≤ bound := by
  cases needed with
  | false => exact h
  | true => exact hneeded rfl

mutual

/-- **An expression takes less than two levels a phrase**, and one less still if its operator binds
more loosely than a unary one.

**Proof sketch.** By recursion on the expression.  The levels of parentheses are paid for by what
stands in them: as an operand of an operator it is of such a looser rank, and in front of a call or
a member the chain takes no level of its own. -/
lemma Expr.levels_le : ∀ e : Expr,
    e.levels + 1 ≤ 2 * e.height ∧ (1 < e.rank → e.levels + 2 ≤ 2 * e.height)
  | .lit .. | .var .. => by simp [Expr.levels, Expr.height, Expr.rank]
  | .assign _ value _ => by
    have hvalue := (Expr.levels_le value).1
    simp only [Expr.levels, Expr.height]
    omega
  | .binary op left right _ => by
    obtain ⟨level, -, hlevel, -⟩ := op.exists_sign
    obtain ⟨hl, hl'⟩ := Expr.levels_le left
    obtain ⟨hr, hr'⟩ := Expr.levels_le right
    have hleft : bracketLevels (op.rank < left.rank) left.levels ≤ 2 * left.height :=
      bracketLevels_le (by omega) fun hrank => hl' (by have := of_decide_eq_true hrank; omega)
    have hright : bracketLevels (op.rank ≤ right.rank) right.levels ≤ 2 * right.height :=
      bracketLevels_le (by omega) fun hrank => hr' (by have := of_decide_eq_true hrank; omega)
    simp only [Expr.levels, Expr.height]
    omega
  | .unary op operand s => by
    have hrank : (Expr.unary op operand s).rank = 1 := rfl
    obtain ⟨ho, ho'⟩ := Expr.levels_le operand
    have hoperand : bracketLevels (1 < operand.rank) operand.levels ≤ 2 * operand.height :=
      bracketLevels_le (by omega) fun hrank => ho' (of_decide_eq_true hrank)
    simp only [Expr.levels, Expr.height]
    omega
  | .call callee args s => by
    have hrank : (Expr.call callee args s).rank = 0 := rfl
    have hc := (Expr.levels_le callee).1
    have hcallee : bracketLevels (0 < callee.rank) callee.levels ≤ 2 * callee.height + 1 :=
      bracketLevels_le (by omega) fun _ => by omega
    have hargs := Expr.levelsAll_le args
    simp only [Expr.levels, Expr.height]
    omega
  | .member object name s => by
    have hrank : (Expr.member object name s).rank = 0 := rfl
    have ho := (Expr.levels_le object).1
    have hobject : bracketLevels (0 < object.rank) object.levels ≤ 2 * object.height + 1 :=
      bracketLevels_le (by omega) fun _ => by omega
    simp only [Expr.levels, Expr.height]
    omega

/-- Arguments take at most twice their height. -/
lemma Expr.levelsAll_le : ∀ es : List Expr, Expr.levelsAll es ≤ 2 * Expr.heightAll es
  | [] => Nat.le_refl 0
  | e :: es => by
    have he := (Expr.levels_le e).1
    have hes := Expr.levelsAll_le es
    simp only [Expr.levelsAll, Expr.heightAll]
    omega

end

/-- A variable in parentheses takes four levels, two for each of its two phrases. -/
lemma itemLevels_le {s : Stmt} (h : s.levels ≤ 2 * s.height) :
    itemLevels s s.levels ≤ 2 * s.height := by
  unfold itemLevels
  split
  · simp [Stmt.levels, Stmt.height, Expr.levels, Expr.height]
  · exact h

mutual

/-- A statement takes at most two levels a phrase. -/
lemma Stmt.levels_le : ∀ s : Stmt, s.levels ≤ 2 * s.height
  | .declare _ _ init _ => by
    have := (Expr.levels_le init).1
    simp only [Stmt.levels, Stmt.height]
    omega
  | .eval e _ => by
    have := (Expr.levels_le e).1
    simp only [Stmt.levels, Stmt.height]
    omega
  | .block body _ => by
    have := Stmt.levelsAll_le body
    simp only [Stmt.levels, Stmt.height]
    omega
  | .ifThen condition thenBranch _ => by
    have := (Expr.levels_le condition).1
    have := Stmt.levels_le thenBranch
    simp only [Stmt.levels, Stmt.height]
    omega
  | .ifElse condition thenBranch elseBranch _ => by
    have := (Expr.levels_le condition).1
    have := Stmt.levels_le thenBranch
    have := Stmt.levels_le elseBranch
    simp only [Stmt.levels, Stmt.height]
    omega
  | .while_ condition body _ => by
    have := (Expr.levels_le condition).1
    have := Stmt.levels_le body
    simp only [Stmt.levels, Stmt.height]
    omega
  | .return_ none _ => by simp [Stmt.levels, Stmt.height]
  | .return_ (some e) _ => by
    have := (Expr.levels_le e).1
    simp only [Stmt.levels, Stmt.height]
    omega

/-- Statements take at most twice their height. -/
lemma Stmt.levelsAll_le : ∀ ss : List Stmt, Stmt.levelsAll ss ≤ 2 * Stmt.heightAll ss
  | [] => Nat.le_refl 0
  | s :: ss => by
    have hs := itemLevels_le (Stmt.levels_le s)
    have hss := Stmt.levelsAll_le ss
    simp only [Stmt.levelsAll, Stmt.heightAll]
    omega

end

/-- A function takes at most two levels a phrase. -/
lemma Function.levels_le (f : Function) : f.levels ≤ 2 * f.height :=
  Stmt.levelsAll_le f.body.body

end Idyl
