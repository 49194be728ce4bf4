import Mathlib
import Idyl.Proofs.Session.Follows

/-!
# Descents into the phrases of the language

Phrase by phrase, a descent follows the rule of the grammar.  The number of levels left, which the
rules for operands and statements are told, is what the depth of the cursor leaves of the greatest
depth.

## Main results

* `Idyl.Descent.operand_follows`, `Idyl.Descent.expression_follows` — operands and expressions.
* `Idyl.Descent.statement_follows` — statements.
* `Idyl.Descent.program_follows`, `Idyl.Descent.library_follows` — whole files.
-/

set_option autoImplicit false

namespace Idyl.Descent

variable {c : Cursor} {d : Nat}

/-! ## Expressions -/

section Expressions

variable {left : Nat} {x : Descent Expr}

/-- One round of operators. -/
lemma join_turns {level : Nat}
    (hb : Follows d (binary x level) (binaryRule (operandRule left) level)) :
    Turns d (join level (binary x level))
      (joinStep (level + 1) (binaryRule (operandRule left) level)) where
  none e c hc hs := by
    rw [join, bind_of_ok (kind_sees hc)]
    rw [joinStep] at hs
    cases hop : binaryOp? (peek c.ahead) with
    | none => rfl
    | some op =>
      simp only [hop] at hs
      have hlevel : ¬ op.level = level + 1 := fun h => by rw [if_pos h] at hs; cases hs
      simp only [if_neg hlevel]
      rfl
  some e r c hc hd hs := by
    obtain ⟨op, hop, hlevel, rfl⟩ := joinStep_eq_some.1 hs
    have hk : peek c.ahead ≠ .endOfFile := by
      intro hk
      rw [hk] at hop
      cases hop
    have hjoin := (token_follows hk "").bind fun _ => hb.bind fun right =>
      pure_follows d (Expr.join op e right)
    refine (hjoin.map Option.some hc hd).congr ?_ rfl
    rw [join, bind_of_ok (kind_sees hc)]
    simp only [hop, if_pos hlevel, map_eq_pure_bind, bind_assoc, pure_bind]

/-- Operators of all levels, by induction over them. -/
lemma binary_follows (hx : Follows d x (operandRule left)) (level : Nat) :
    Follows d (binary x level) (binaryRule (operandRule left) level) := by
  induction level with
  | zero => exact hx
  | succ level ih =>
    exact ih.bind fun e => iterate_follows
      (joinStep_advancing (binaryRule_shrinking left level) _) (join_turns ih) e

/-- Assignments, in more rounds than there are tokens ahead. -/
lemma assignmentWithin_follows (hx : Follows d x (operandRule left)) {rounds : Nat}
    (hc : c.Orderly) (hd : c.depth = d) (hlt : c.ahead.length < rounds) :
    FollowsAt c (assignmentWithin x rounds) (expressionRule (operandRule left)) := by
  have hb := binary_follows hx BinaryOp.loosest
  have hshrink := binaryRule_shrinking left BinaryOp.loosest
  induction rounds generalizing c with
  | zero => omega
  | succ rounds ih =>
    refine FollowsAt.congr ?_ rfl (congrFun (assignmentRule_eq hshrink) _)
    refine (hb hc hd).bind hc fun target c₁ hleads₁ htarget => ?_
    have hd₁ := hleads₁.depth_eq.trans hd
    refine FollowsAt.next hleads₁.orderly ?_
    split
    · refine (mark_follows _ _ hleads₁.orderly hd₁).bind hleads₁.orderly
        fun sign c₂ hleads₂ hsign => ?_
      have hd₂ := hleads₂.depth_eq.trans hd₁
      have hlt₂ : c₂.ahead.length < rounds := by
        have h₁ := hshrink htarget
        have h₂ := Rule.token_shrinking _ _ hsign
        omega
      cases target with
      | var name span =>
        refine FollowsAt.bind hleads₂.orderly (ih hleads₂.orderly hd₂ hlt₂)
          fun value c₃ hleads₃ _ => ?_
        exact pure_follows _ _ hleads₃.orderly rfl
      | _ => exact failAt_follows _ _ hleads₂.orderly hd₂
    · exact pure_follows _ _ hleads₁.orderly hd₁

/-- Expressions. -/
lemma assignment_follows (hx : Follows d x (operandRule left)) :
    Follows d (assignment x) (expressionRule (operandRule left)) :=
  fun _ hc hd => assignmentWithin_follows hx hc hd (length_ahead_lt hc)

/-- A comma is seen ahead. -/
lemma commaAhead_sees : Sees commaAhead fun ts => decide (peek ts = .punct .comma) :=
  kind_sees.pure _

/-- The arguments of a call. -/
lemma arguments_follows (hx : Follows d x (operandRule left)) :
    Follows d (arguments x) (argumentsRule (expressionRule (operandRule left))) := by
  have he := assignment_follows hx
  have hmore := many_follows (arguments_paced left) commaAhead_sees
    ((mark_follows .comma "").bind fun _ => he)
  refine .next fun k => .ite (pure_follows _ _) ?_
  exact he.bind fun _ => hmore.bind fun _ => pure_follows _ _

/-- One round of calls and members. -/
lemma suffix_turns (hx : Follows d x (operandRule left)) :
    Turns d (suffix x) (postfixStep (expressionRule (operandRule left))) where
  none e c hc hs := by
    have hparen : ¬ peek c.ahead = .punct .lparen := fun h => by rw [h] at hs; cases hs
    have hdot : ¬ peek c.ahead = .punct .dot := fun h => by rw [h] at hs; cases hs
    rw [suffix, bind_of_ok (kind_sees hc), if_neg hparen, if_neg hdot]
    rfl
  some e r c hc hd hs := by
    rcases postfixStep_eq_some.1 hs with ⟨hk, rfl⟩ | ⟨hk, rfl⟩
    · have hcall := (mark_follows .lparen "").bind fun _ => (arguments_follows hx).bind fun args =>
        (mark_follows .rparen "after arguments").bind fun close =>
          pure_follows d (Expr.call e args (e.span.merge close.span))
      refine (hcall.map Option.some hc hd).congr ?_ rfl
      rw [suffix, bind_of_ok (kind_sees hc), if_pos hk]
      simp only [map_eq_pure_bind, bind_assoc, pure_bind]
    · have hmember := (mark_follows .dot "").bind fun _ =>
        (name_follows "property name after '.'").bind fun n =>
          pure_follows d (Expr.member e n.1 (e.span.merge n.2))
      refine (hmember.map Option.some hc hd).congr ?_ rfl
      rw [suffix, bind_of_ok (kind_sees hc), hk, if_neg (by simp), if_pos rfl]
      simp only [map_eq_pure_bind, bind_assoc, pure_bind]

/-- What is read where a literal stands. -/
lemma primaryRule_literal (group : Rule Expr) (t : Token) (rest : List Token) :
    (∀ v, literalOf? t.kind = some (.ok v) →
      primaryRule group (t :: rest) = .ok (.lit v t.span) rest) ∧
    ∀ f, literalOf? t.kind = some (.error f) →
      primaryRule group (t :: rest) = Rule.faultAt t f (t :: rest) := by
  cases hk : t.kind with
  | integer text =>
    have hl : literalOf? (.integer text) = some ((readInt? text).elim
        (.error (.integerTooLarge text)) fun n => .ok (.int n)) := rfl
    rw [hl]
    cases hn : readInt? text with
    | none => exact ⟨by simp, by simp [primaryRule, hk, hn, Rule.fault, Rule.faultAt]⟩
    | some n => exact ⟨by simp [primaryRule, hk, hn], by simp⟩
  | float text =>
    have hl : literalOf? (.float text) = some ((Binary64.ofText? text).elim
        (.error (.invalidFloat text)) fun x => .ok (.float x)) := rfl
    rw [hl]
    cases hx : Binary64.ofText? text with
    | none => exact ⟨by simp, by simp [primaryRule, hk, hx, Rule.fault, Rule.faultAt]⟩
    | some x => exact ⟨by simp [primaryRule, hk, hx], by simp⟩
  | string value | char value =>
    refine ⟨fun v hv => ?_, fun f hf => (by cases hf)⟩
    cases hv
    rw [primaryRule, hk]
  | keyword w =>
    cases w with
    | true | false =>
      refine ⟨fun v hv => ?_, fun f hf => (by cases hf)⟩
      cases hv
      rw [primaryRule, hk]
    | _ => exact ⟨fun v hv => (by cases hv), fun f hf => (by cases hf)⟩
  | _ => exact ⟨fun v hv => (by cases hv), fun f hf => (by cases hf)⟩

/-- What is read where no literal stands. -/
lemma primaryRule_other (group : Rule Expr) {t : Token} (hl : literalOf? t.kind = none)
    (rest : List Token) :
    (∀ n, nameOf? t.kind = some n → primaryRule group (t :: rest) = .ok (.var n t.span) rest) ∧
    (t.kind = .punct .lparen → primaryRule group (t :: rest) = group rest) ∧
    (nameOf? t.kind = none → t.kind ≠ .punct .lparen →
      primaryRule group (t :: rest) = Rule.expected "expression" (t :: rest)) := by
  cases hk : t.kind with
  | integer text | float text | string value | char value => rw [hk] at hl; cases hl
  | identifier n =>
    refine ⟨fun m hm => ?_, by simp, fun hn => (by cases hn)⟩
    cases hm
    rw [primaryRule, hk]
  | keyword w =>
    cases w with
    | true | false => rw [hk] at hl; cases hl
    | _ => exact ⟨fun m hm => (by cases hm), by simp, fun _ _ => by rw [primaryRule, hk]⟩
  | punct m =>
    cases m with
    | lparen =>
      exact ⟨fun m hm => (by cases hm), fun _ => by rw [primaryRule, hk], fun _ h => absurd rfl h⟩
    | _ => exact ⟨fun m hm => (by cases hm), by simp, fun _ _ => by rw [primaryRule, hk]⟩
  | endOfFile => exact ⟨fun m hm => (by cases hm), by simp, fun _ _ => by rw [primaryRule, hk]⟩

/-- Literals, names and groups. -/
lemma primary_follows {group : Rule Expr}
    (hg : Follows d (nested .expression (grouped x)) group) :
    Follows d (primary x) (primaryRule group) := by
  intro c hc hd
  refine FollowsAt.current hc fun t hhead hkind => ?_
  cases hcons : c.ahead with
  | nil =>
    have heof : t.kind = .endOfFile := by rw [hkind, hcons]; rfl
    rw [heof]
    exact (expected_follows _ hc hd).congr rfl (by rw [hcons]; rfl)
  | cons u rest =>
    obtain rfl : u = t := by rw [hcons] at hhead; exact hhead
    cases hl : literalOf? u.kind with
    | some l =>
      cases l with
      | ok v =>
        exact take_followsAt hc hcons (f := fun _ => Expr.lit v u.span)
          (by rw [hcons, (primaryRule_literal group u rest).1 v hl])
      | error f =>
        exact (failAt_follows u f hc hd).congr rfl
          (by rw [hcons, (primaryRule_literal group u rest).2 f hl])
    | none =>
      obtain ⟨hname, hparen, hother⟩ := primaryRule_other group hl rest
      cases hn : nameOf? u.kind with
      | some n =>
        exact take_followsAt hc hcons (f := fun _ => Expr.var n u.span)
          (by rw [hcons, hname n hn])
      | none =>
        by_cases hp : u.kind = .punct .lparen
        · have htoken : Rule.token u.kind "" c.ahead = .ok u rest := by
            rw [hcons, Rule.token, if_pos rfl]
          simp only [if_pos hp]
          refine FollowsAt.congr ((advance_followsAt hc hcons htoken).bind hc (g := fun _ => group)
            fun _ c' hleads _ => hg hleads.orderly (hleads.depth_eq.trans hd)) rfl ?_
          rw [Rule.bind_of_ok htoken, hcons, hparen hp]
        · simp only [if_neg hp]
          exact (expected_follows _ hc hd).congr rfl (by rw [hcons, hother hn hp])

/-- An expression in parentheses. -/
lemma grouped_follows (hx : Follows d x (operandRule left)) :
    Follows d (grouped x) (groupRule (expressionRule (operandRule left))) :=
  (assignment_follows hx).bind fun _ => (mark_follows _ _).bind fun _ => pure_follows _ _

/-- Operators in front of an operand. -/
lemma prefixed_follows (hx : Follows d x (operandRule left)) {group : Rule Expr}
    (hg : Follows d (nested .expression (grouped x)) group) :
    Follows d (prefixed x)
      (prefixRule (operandRule left) (expressionRule (operandRule left)) group) := by
  refine .next fun k => ?_
  by_cases hnot : k = .keyword .not
  · subst hnot
    rw [if_pos rfl]
    exact (word_follows _ _).bind fun _ => hx.bind fun _ => pure_follows _ _
  by_cases hminus : k = .punct .minus
  · subst hminus
    rw [if_neg (by simp), if_pos rfl]
    exact (mark_follows _ _).bind fun _ => hx.bind fun _ => pure_follows _ _
  rw [if_neg hnot, if_neg hminus]
  split
  · exact absurd rfl hnot
  · exact absurd rfl hminus
  · exact (primary_follows hg).bind fun e => iterate_follows
      (postfixStep_advancing (expressionRule_sound (operandRule_sound left))) (suffix_turns hx) e

/-- **Operands.**  By induction on the operands in each other, of which there are more than levels
left; parentheses take a level of their own. -/
lemma operand_follows {height : Nat} (hd : d + left = maxDepth) (hheight : left < height) :
    Follows d (operand height) (operandRule left) := by
  induction height generalizing d left with
  | zero => omega
  | succ height ih =>
    rw [operand]
    cases left with
    | zero => exact nested_follows_fault (by omega)
    | succ left =>
      rw [operandRule_succ]
      refine nested_follows (by omega) (prefixed_follows (ih (by omega) (by omega)) ?_)
      cases left with
      | zero => exact nested_follows_fault (by omega)
      | succ inner => exact nested_follows (by omega) (grouped_follows (ih (by omega) (by omega)))

/-- **Expressions.** -/
lemma expression_follows (hd : d + left = maxDepth) :
    Follows d expression (expressionRule (operandRule left)) :=
  assignment_follows (operand_follows hd (by omega))

end Expressions

/-! ## Statements -/

section Statements

/-- Without a name ahead no type is misspelled. -/
lemma misspelledType?_of_none {ts : List Token} (h : nameOf? (peek ts) = none) :
    misspelledType? ts = none := by
  rcases ts with _ | ⟨t, _ | ⟨u, us⟩⟩
  · rfl
  · rfl
  · rw [peek] at h
    cases hk : t.kind with
    | identifier n => rw [hk] at h; cases h
    | _ => rw [misspelledType?, hk]

/-- A name is a misspelled type if a semicolon or another name follows. -/
lemma misspelledType?_of_name {t : Token} {n : String} (hk : t.kind = .identifier n)
    (rest : List Token) :
    misspelledType? (t :: rest) =
      if peek rest = .punct .semi ∨ (nameOf? (peek rest)).isSome then some n else none := by
  cases rest with
  | nil => rfl
  | cons u us =>
    rw [misspelledType?, hk, peek]
    cases hu : u.kind with
    | punct m => cases m <;> rfl
    | _ => rfl

/-- Whether the type of a declaration is misspelled shows in the tokens ahead. -/
lemma misspelled_sees : Sees misspelled misspelledType? := by
  intro c hc
  rw [misspelled, bind_of_ok (kind_sees hc)]
  cases hn : nameOf? (peek c.ahead) with
  | none =>
    rw [misspelledType?_of_none hn]
    rfl
  | some n =>
    obtain ⟨t, rest, hcons, hk⟩ := exists_of_nameOf? hn
    rw [hcons, misspelledType?_of_name hk]
    exact bind_of_ok (nextKind_apply hc hcons)

/-- The end of a block is seen ahead. -/
lemma inBlock_sees : Sees inBlock Idyl.inBlock := kind_sees.pure _

variable {left : Nat}

section Forms

variable (he : Follows d expression (expressionRule (operandRule left)))
include he

/-- Conditions in parentheses. -/
lemma condition_follows (place : String) :
    Follows d (condition place) (conditionRule (expressionRule (operandRule left)) place) :=
  (mark_follows _ _).bind fun _ => he.bind fun _ => (mark_follows _ _).bind fun _ =>
    pure_follows _ _

/-- Declarations of variables. -/
lemma declaration_follows :
    Follows d declaration (declarationRule (expressionRule (operandRule left))) := by
  refine typeName_follows.bind fun x => (name_follows _).bind fun y => ?_
  cases x.1.default? with
  | none => exact failAt_follows _ _
  | some value =>
    refine .next fun k => ?_
    have hend : ∀ init : Expr, Follows d (do
          let semi ← mark .semi "after variable declaration"
          pure (Stmt.declare x.1 y.1 init (x.2.span.merge semi.span)))
        (do
          let semi ← Rule.mark .semi "after variable declaration"
          pure (Stmt.declare x.1 y.1 init (x.2.span.merge semi.span))) :=
      fun init => (mark_follows _ _).bind fun _ => pure_follows _ _
    split
    · exact (mark_follows _ _).bind fun _ => he.bind hend
    · exact (pure_follows _ _).bind hend

/-- A `return` with or without a value. -/
lemma returning_follows :
    Follows d returning (returnRule (expressionRule (operandRule left))) := by
  refine (word_follows _ _).bind fun start => .next fun k => ?_
  have hend : ∀ value : Option Expr, Follows d (do
        let semi ← mark .semi "after return"
        pure (Stmt.return_ value (start.span.merge semi.span)))
      (do
        let semi ← Rule.mark .semi "after return"
        pure (Stmt.return_ value (start.span.merge semi.span))) :=
    fun value => (mark_follows _ _).bind fun _ => pure_follows _ _
  split
  · exact (pure_follows _ _).bind hend
  · exact (he.map some).bind hend

/-- Expressions with a semicolon. -/
lemma evaluation_follows :
    Follows d evaluation (evalRule (expressionRule (operandRule left))) :=
  he.bind fun _ => (mark_follows _ _).bind fun _ => pure_follows _ _

variable {x : Descent Stmt} (hs : Follows d x (statementRule left))
include hs

/-- What stands in a block. -/
lemma item_follows :
    Follows d (item x) (itemRule (expressionRule (operandRule left)) (statementRule left)) := by
  intro c hc hd
  refine FollowsAt.look hc kind_sees ?_
  cases htype : (peek c.ahead).isTypeName with
  | true =>
    refine (declaration_follows he hc hd).congr rfl ?_
    rw [itemRule, if_pos htype]
  | false =>
    refine FollowsAt.look hc misspelled_sees ?_
    cases hm : misspelledType? c.ahead with
    | some n =>
      refine (fault_follows (.unknownType n) hc hd).congr rfl ?_
      simp only [itemRule, htype, hm]
      rfl
    | none =>
      refine (hs hc hd).congr rfl ?_
      simp only [itemRule, htype, hm]
      rfl

/-- Blocks. -/
lemma block_follows :
    Follows d (block x) (blockRule (expressionRule (operandRule left)) (statementRule left)) := by
  have hitems := many_follows (items_paced left) inBlock_sees (item_follows he hs)
  exact (mark_follows _ _).bind fun _ => hitems.bind fun _ => (mark_follows _ _).bind fun _ =>
    pure_follows _ _

/-- An `if`, with or without an `else`. -/
lemma ifStatement_follows :
    Follows d (ifStatement x)
      (ifRule (expressionRule (operandRule left)) (statementRule left)) := by
  refine (word_follows _ _).bind fun _ => (condition_follows he _).bind fun _ => ?_
  refine hs.bind fun _ => .next fun _ => .ite ?_ (pure_follows _ _)
  exact (word_follows _ _).bind fun _ => hs.bind fun _ => pure_follows _ _

/-- Loops. -/
lemma whileStatement_follows :
    Follows d (whileStatement x)
      (whileRule (expressionRule (operandRule left)) (statementRule left)) := by
  exact (word_follows _ _).bind fun _ => (condition_follows he _).bind fun _ =>
    hs.bind fun _ => pure_follows _ _

/-- All forms of statements. -/
lemma statementForm_follows :
    Follows d (statementForm x)
      (statementFormRule (expressionRule (operandRule left)) (statementRule left)) := by
  refine .next fun k => ?_
  by_cases hif : k = .keyword .if_
  · subst hif
    exact ifStatement_follows he hs
  by_cases hwhile : k = .keyword .while_
  · subst hwhile
    exact whileStatement_follows he hs
  by_cases hreturn : k = .keyword .return_
  · subst hreturn
    exact returning_follows he
  by_cases hbrace : k = .punct .lbrace
  · subst hbrace
    exact (block_follows he hs).bind fun _ => pure_follows _ _
  rw [if_neg hif, if_neg hwhile, if_neg hreturn, if_neg hbrace]
  split
  · exact absurd rfl hif
  · exact absurd rfl hwhile
  · exact absurd rfl hreturn
  · exact absurd rfl hbrace
  · exact evaluation_follows he

end Forms

/-- **Statements.**  By induction on the statements in each other, of which there are more than
levels left. -/
lemma statement_follows {height : Nat} (hd : d + left = maxDepth) (hheight : left < height) :
    Follows d (statement height) (statementRule left) := by
  induction height generalizing d left with
  | zero => omega
  | succ height ih =>
    rw [statement]
    cases left with
    | zero => exact nested_follows_fault (by omega)
    | succ left =>
      have he := expression_follows (show d + 1 + left = maxDepth by omega)
      exact nested_follows (by omega) (statementForm_follows he (ih (by omega) (by omega)))

end Statements

/-! ## Files -/

/-- The bodies of functions, where all levels are left. -/
lemma body_follows : Follows 0 body bodyRule :=
  block_follows (expression_follows (Nat.zero_add _))
    (statement_follows (Nat.zero_add _) (Nat.lt_succ_self _))

/-- Imports. -/
lemma importLine_follows : Follows d importLine importRule :=
  (word_follows _ _).bind fun _ => (name_follows _).bind fun _ => (mark_follows _ _).bind fun _ =>
    pure_follows _ _

/-- The parameters of a function. -/
lemma params_follows (function : String) : Follows d (params function) (paramsRule function) := by
  refine .next fun _ => .ite (pure_follows _ _) ?_
  refine typeName_follows.bind fun _ => (name_follows _).bind fun _ => ?_
  exact .next fun _ => .ite (fault_follows _) (pure_follows _ _)

/-- Functions. -/
lemma function_follows : Follows 0 function functionRule := by
  refine typeName_follows.bind fun _ => (word_follows _ _).bind fun _ => ?_
  refine (name_follows _).bind fun x => (mark_follows _ _).bind fun _ => ?_
  refine (params_follows x.1).bind fun _ => (mark_follows _ _).bind fun _ => ?_
  exact body_follows.bind fun _ => pure_follows _ _

/-- The function `main`. -/
lemma mainFunction_follows : Follows 0 mainFunction mainRule :=
  (word_follows _ _).bind fun _ => (mark_follows _ _).bind fun _ => (mark_follows _ _).bind fun _ =>
    body_follows.bind fun _ => pure_follows _ _

/-- An import is seen ahead. -/
lemma importAhead_sees : Sees importAhead Idyl.importAhead := kind_sees.pure _

/-- The end of the file is seen ahead. -/
lemma inFile_sees : Sees inFile fun ts => decide (peek ts ≠ .endOfFile) := kind_sees.pure _

/-- Whether a function is at the cursor shows in the tokens ahead. -/
lemma functionAhead_sees : Sees functionAhead Idyl.functionAhead := by
  intro c hc
  rw [functionAhead, bind_of_ok (kind_sees hc)]
  cases hcons : c.ahead with
  | nil => rfl
  | cons t rest =>
    rw [peek, Idyl.functionAhead]
    cases hk : t.kind with
    | identifier n => exact bind_of_ok (nextKind_apply hc hcons)
    | keyword w => cases w <;> rfl
    | _ => rfl

/-- **Programs.** -/
lemma program_follows (file : String) : Follows 0 (program file) (programRule file) := by
  have himports := many_follows imports_paced importAhead_sees (importLine_follows (d := 0))
  have hfunctions := many_follows functions_paced functionAhead_sees function_follows
  refine himports.bind fun _ => hfunctions.bind fun _ => ?_
  refine .next fun _ => .ite ?_ (expected_follows _)
  exact mainFunction_follows.bind fun _ => .next fun _ => .ite (pure_follows _ _)
    (expected_follows _)

/-- What stands in a library. -/
lemma libraryItem_follows : Follows 0 libraryItem libraryItemRule := by
  intro c hc hd
  refine FollowsAt.look hc importAhead_sees ?_
  cases hi : Idyl.importAhead c.ahead with
  | true =>
    refine FollowsAt.congr (importLine_follows.bind (fun _ => pure_follows 0 none) hc hd) rfl ?_
    rw [libraryItemRule, if_pos hi]
  | false =>
    refine FollowsAt.look hc functionAhead_sees ?_
    cases hf : Idyl.functionAhead c.ahead with
    | true =>
      refine FollowsAt.congr (function_follows.map some hc hd) rfl ?_
      rw [libraryItemRule, if_neg (by rw [hi]; decide), if_pos hf]
    | false =>
      refine FollowsAt.look hc kind_sees ((fault_follows _ hc hd).congr rfl ?_)
      rw [libraryItemRule, if_neg (by rw [hi]; decide), if_neg (by rw [hf]; decide)]

/-- **Libraries.** -/
lemma library_follows : Follows 0 library libraryRule :=
  (many_follows libraryItems_paced inFile_sees libraryItem_follows).bind fun _ => pure_follows _ _

end Idyl.Descent
