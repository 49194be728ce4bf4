import Idyl.Proofs.Grammar.Sound

/-!
# Rules read every phrase of the grammar

The other direction: where a phrase of the grammar stands, followed by a token that cannot
continue it, the rule for it reads exactly this phrase, unless phrases are nested deeper than the
levels it has left.  So a rule gives the tree or says that phrases are nested too deeply, and the
latter only if the phrase needs more levels.

## Main definitions

* `Idyl.Stops` — tokens that do not continue an expression of some level.

## Main results

* `Idyl.expressionRule_complete`, `Idyl.operandRule_complete` — expressions and operands.
* `Idyl.statementRule_complete` — statements.
* `Idyl.programRule_complete` — whole programs.
-/

set_option autoImplicit false

namespace Idyl

open Rule Grammar Reply

variable {operand expression group : Rule Expr} {statement : Rule Stmt}
  {O P E G : Phrase Expr} {S : Phrase Stmt} {deep : Prop}

/-! ## Binary operators and assignments -/

/-- The tokens do not go on with an expression whose operators have at most the given level:
neither with a call, nor with a member, nor with such an operator. -/
def Stops (level : Nat) (ks : List TokenKind) : Prop :=
  firstKind ks ≠ .punct .lparen ∧ firstKind ks ≠ .punct .dot ∧
    ∀ op, binaryOp? (firstKind ks) = some op → level < op.level

/-- What stops a level stops all tighter ones. -/
lemma Stops.anti {level level' : Nat} {ks : List TokenKind} (h : Stops level ks)
    (hle : level' ≤ level) : Stops level' ks :=
  ⟨h.1, h.2.1, fun op hop => Nat.lt_of_le_of_lt hle (h.2.2 op hop)⟩

/-- An operator stops all expressions of tighter levels. -/
lemma stops_of_binaryOp? {k : TokenKind} {op : BinaryOp} {level : Nat} (h : binaryOp? k = some op)
    (hl : level < op.level) (ks : List TokenKind) : Stops level (k :: ks) := by
  refine ⟨?_, ?_, fun op' h' => ?_⟩
  · rintro rfl
    simp [binaryOp?] at h
  · rintro rfl
    simp [binaryOp?] at h
  · rw [firstKind_cons, h, Option.some.injEq] at h'
    exact h' ▸ hl

/-- Each round of operators takes a token. -/
lemma joinStep_advancing (h : operand.Shrinking) (level : Nat) :
    Advancing (joinStep level operand) where
  atEnd _ := rfl
  shrinking l k r hs := by
    obtain ⟨op, -, -, rfl⟩ := joinStep_eq_some.1 hs
    refine bind_shrinking (token_shrinking k "") fun t ts e rest hr => ?_
    obtain ⟨e', mid, he, hr⟩ := bind_eq_ok.1 hr
    rw [pure_apply, Reply.ok.injEq] at hr
    obtain ⟨-, rfl⟩ := hr
    exact Nat.le_of_lt (h he)

/-- **One level of operators.** Where operands joined by operators of a level stand, reading goes
on behind them, with the same tree, as long as the operands are read.

**Proof sketch.** Induction on the phrase, which groups to the left.  A single operand is read by
the rule in front of the repetition.  Otherwise reading reaches the left operand, where the next
token is an operator of the level; so the repetition makes one more round and takes the right
operand. -/
lemma binaryRule_reaches {level : Nat} (hs : (binaryRule operand level).Shrinking)
    (h : (binaryRule operand level).Complete Expr.bare O (fun _ => Stops level) deep)
    {ks : List TokenKind} {e : Expr} (he : Joined (level + 1) O ks e) :
    ∀ {ts : List Token} {ks' : List TokenKind}, kinds ts = ks ++ ks' → Stops level ks' →
      (binaryRule operand (level + 1) ts).Reaches
        (iterate (joinStep (level + 1) (binaryRule operand level))) Expr.bare e ks' deep := by
  induction he with
  | single he =>
    intro ts ks' hk hstop
    exact (h he hk hstop).andThen
  | @join ks₁ ks₂ k op l r _ hsign hr ih =>
    intro ts ks' hk hstop
    obtain ⟨hop, hlevel⟩ := sign_iff.1 hsign
    have hk' : kinds ts = ks₁ ++ k :: (ks₂ ++ ks') := by simpa using hk
    refine (ih hk' (stops_of_binaryOp? hop (by omega) _)).trans fun b rest hb hrest => ?_
    have hpeek : peek rest = k := by rw [peek_eq_firstKind, hrest, firstKind_cons]
    rw [iterate_of_some (joinStep_advancing hs _)
      (joinStep_eq_some.2 ⟨op, hpeek ▸ hop, hlevel, rfl⟩), hpeek]
    refine Gives.andThen ?_
    exact (token_gives hrest).bind fun _ _ _ hrest₁ =>
      (h hr hrest₁ hstop).bind fun b' _ hb' hrest₂ =>
        .here (by rw [Expr.join, Expr.bare, hb, hb']) hrest₂

/-- **Completeness of binary operators**, given that of operands. -/
lemma binaryRule_complete (hs : operand.Sound Expr.bare P) (hP : P.StartsWith opensExpr)
    (h : operand.Complete Expr.bare O (fun _ => Stops 0) deep) (level : Nat) :
    (binaryRule operand level).Complete Expr.bare (Binary O level) (fun _ => Stops level) deep := by
  induction level with
  | zero => exact h
  | succ level ih =>
    intro ts ks e ks' he hk hstop
    have hshrink := (binaryRule_sound hs level).shrinking (binary_startsWith hP)
    refine (binaryRule_reaches hshrink ih he hk (hstop.anti (by omega))).trans
      fun b rest hb hrest => ?_
    -- the next token is no operator of this level, so the repetition ends here
    have hnone : joinStep (level + 1) (binaryRule operand level) b (peek rest) = none := by
      rw [Option.eq_none_iff_forall_ne_some]
      intro r hr
      obtain ⟨op, hop, hlevel, -⟩ := joinStep_eq_some.1 hr
      rw [peek_eq_firstKind, hrest] at hop
      have := hstop.2.2 op hop
      omega
    exact Gives.of_ok (iterate_of_none hnone) hb hrest

/-- The tokens do not go on with an expression. -/
def Ends (ks : List TokenKind) : Prop :=
  Stops BinaryOp.loosest ks ∧ firstKind ks ≠ .punct .assign

/-- Completeness of assignments, as long as there are as many rounds as tokens.

**Proof sketch.** Induction on the phrase.  Every assignment takes a token, so a round is left
for what is assigned. -/
lemma assignmentWithin_gives (hO : O.StartsWith opensExpr)
    (h : operand.Complete Expr.bare O (fun _ => Stops BinaryOp.loosest) deep)
    {ks : List TokenKind} {e : Expr} (he : Assigned O ks e) :
    ∀ {rounds ts : List Token} {ks' : List TokenKind}, ts.length ≤ rounds.length →
      kinds ts = ks ++ ks' → Ends ks' →
      (assignmentWithin operand rounds ts).Gives Expr.bare e ks' deep := by
  have hcons : ∀ {ks e ks'} {rounds ts : List Token}, O ks e → ts.length ≤ rounds.length →
      kinds ts = ks ++ ks' → ∃ u us, rounds = u :: us := by
    intro ks e ks' rounds ts he hle hk
    obtain ⟨k, ks, rfl, -⟩ := hO he
    cases rounds with
    | nil =>
      obtain rfl : ts = [] := List.length_eq_zero_iff.1 (by simpa using hle)
      simp at hk
    | cons u us => exact ⟨u, us, rfl⟩
  induction he with
  | value he =>
    intro rounds ts ks' hle hk hends
    obtain ⟨u, us, rfl⟩ := hcons he hle hk
    refine (h he hk hends.1).bind fun b rest hb hrest => ?_
    rw [next_bind, if_neg (by rw [peek_eq_firstKind, hrest]; exact hends.2)]
    exact .here hb hrest
  | @assign ks₁ ks₂ x e ht _ ih =>
    intro rounds ts ks' hle hk hends
    have hk' : kinds ts = ks₁ ++ .punct .assign :: (ks₂ ++ ks') := by simpa using hk
    obtain ⟨u, us, rfl⟩ := hcons ht hle hk'
    have hstop : Stops BinaryOp.loosest (.punct .assign :: (ks₂ ++ ks')) :=
      ⟨by simp, by simp, by simp [binaryOp?]⟩
    refine (h ht hk' hstop).bind fun b rest hb hrest => ?_
    obtain ⟨s, rfl⟩ := Expr.bare_eq_var_iff.1 hb
    rw [next_bind, if_pos (by rw [peek_eq_firstKind, hrest]; rfl)]
    refine (token_gives hrest).bind fun sign rest' _ hrest' => ?_
    have hlt : rest'.length < ts.length := by
      have h₁ := congrArg List.length hk'
      have h₂ := congrArg List.length hrest'
      simp only [kinds_length, List.length_append, List.length_cons] at h₁ h₂
      omega
    simp only [List.length_cons] at hle
    exact (ih (by omega) hrest' hends).bind fun b' rest'' hb' hk'' =>
      .here (by rw [Expr.bare, hb']) hk''

/-- Completeness of expressions, given that of operands. -/
lemma expressionRule_complete (hs : operand.Sound Expr.bare P) (hP : P.StartsWith opensExpr)
    (hO : O.StartsWith opensExpr) (h : operand.Complete Expr.bare O (fun _ => Stops 0) deep) :
    (expressionRule operand).Complete Expr.bare (Expression O) (fun _ => Ends) deep :=
  fun _ _ _ _ he hk hends => assignmentWithin_gives (binary_startsWith hO)
    (binaryRule_complete hs hP h BinaryOp.loosest) he (Nat.le_refl _) hk hends

/-! ## Operands -/

/-- A rule that reads on behind an opening parenthesis reads every phrase before the closing
one. -/
def ReadsGroup (group : Rule Expr) (G : Phrase Expr) (deep : Prop) : Prop :=
  ∀ ⦃ts ks e ks'⦄, G ks e → kinds ts = ks ++ .punct .rparen :: ks' →
    (group ts).Gives Expr.bare e ks' deep

/-- A closing parenthesis, a comma and a semicolon end an expression. -/
lemma Ends.of_firstKind {ks : List TokenKind}
    (h : firstKind ks = .punct .rparen ∨ firstKind ks = .punct .comma ∨
      firstKind ks = .punct .semi) : Ends ks := by
  unfold Ends Stops
  rcases h with h | h | h <;> simp [h, binaryOp?]

/-- An expression in parentheses is read between them. -/
lemma groupRule_reads (h : expression.Complete Expr.bare E (fun _ => Ends) deep) :
    ReadsGroup (groupRule expression) E deep := by
  intro ts ks e ks' he hk
  exact (h he hk (.of_firstKind (.inl rfl))).bind fun b rest hb hrest =>
    (token_gives hrest).bind fun _ _ _ hrest' => .here hb hrest'

/-- Completeness of literals, names and groups. -/
lemma primaryRule_complete (h : ReadsGroup group G deep) :
    (primaryRule group).Complete Expr.bare (Primary G) (fun _ _ => True) deep := by
  intro ts ks e ks' he hk _
  obtain ⟨t, rest, rfl, ht, hrest⟩ : ∃ t rest, ts = t :: rest ∧ t.kind = firstKind ks ∧
      kinds rest = (ks ++ ks').tail := by
    obtain ⟨k, ks, rfl, -⟩ := primary_startsWith he
    obtain ⟨t, rest, hts, ht, hrest⟩ := kinds_eq_cons hk
    exact ⟨t, rest, hts, ht, hrest⟩
  cases he with
  | integer hn => exact .of_ok (by simp only [primaryRule, ht, firstKind, hn]; rfl) rfl hrest
  | float hx => exact .of_ok (by simp only [primaryRule, ht, firstKind, hx]; rfl) rfl hrest
  | string | char | isTrue | isFalse | name =>
    exact .of_ok (by simp only [primaryRule, ht, firstKind]; rfl) rfl hrest
  | group hg =>
    simp only [primaryRule, ht, firstKind]
    exact h hg (by simpa using hrest)

/-- An expression behind a comma is read behind it. -/
lemma afterComma_complete (h : expression.Complete Expr.bare E (fun _ => Ends) deep) :
    (do let _ ← mark .comma ""; expression : Rule Expr).Complete Expr.bare (AfterComma E)
      (fun _ => Ends) deep := by
  intro ts ks e ks' he hk hends
  cases he with
  | mk he => exact (token_gives hk).bind fun _ _ _ hrest => h he hrest hends

/-- Such an expression starts with its comma. -/
lemma afterComma_startsWith : (AfterComma E).StartsWith (· = .punct .comma) := by
  intro ks e he
  cases he
  exact ⟨_, _, rfl, by simp⟩

/-- The arguments of a call are read up to its closing parenthesis. -/
lemma argumentsRule_complete (hE : E.StartsWith opensExpr)
    (h : expression.Complete Expr.bare E (fun _ => Ends) deep) :
    (argumentsRule expression).Complete (List.map Expr.bare) (Arguments E)
      (fun _ ks => firstKind ks = .punct .rparen) deep := by
  intro ts ks es ks' hes hk hclose
  rw [argumentsRule, next_bind]
  cases hes with
  | none =>
    rw [if_pos (by rw [peek_eq_firstKind, hk]; exact hclose)]
    exact Reaches.here rfl hk
  | @some ks₁ ks₂ e es he hes =>
    rw [List.append_assoc] at hk
    have hpeek : peek ts ≠ .punct .rparen := by
      obtain ⟨k, ks₁', rfl, hopen⟩ := hE he
      rw [peek_eq_firstKind, hk, List.cons_append, firstKind_cons]
      rintro rfl
      exact absurd hopen (by decide)
    have hends : Ends (ks₂ ++ ks') := by
      cases hes with
      | nil => exact .of_firstKind (.inl hclose)
      | cons hc _ => cases hc; exact .of_firstKind (.inr (.inl rfl))
    rw [if_neg hpeek]
    refine (h he hk hends).bind fun b rest hb hrest => ?_
    have hmany : (many (fun ts => peek ts = .punct .comma)
        (do let _ ← mark .comma ""; expression) rest).Gives (List.map Expr.bare) es ks' deep := by
      refine many_gives afterComma_startsWith ?_ ?_ (afterComma_complete h) ?_
        (.of_firstKind (.inl hclose)) hes hrest
      · intro ts ks e ks' hc hk
        cases hc
        simp [peek_eq_firstKind, hk]
      · intro ks e ks' hc
        cases hc
        exact .of_firstKind (.inr (.inl rfl))
      · intro ts hk
        simp [peek_eq_firstKind, hk, hclose]
    exact hmany.bind fun bs rest' hbs hrest' => .here (by rw [List.map_cons, hb, hbs]) hrest'

/-- Each round of calls and members takes a token. -/
lemma postfixStep_advancing (h : expression.Sound Expr.bare P) :
    Advancing (postfixStep expression) where
  atEnd _ := rfl
  shrinking o k r hs := by
    rcases postfixStep_eq_some.1 hs with ⟨-, rfl⟩ | ⟨-, rfl⟩
    · refine bind_shrinking (token_shrinking _ "") fun t ts e rest hr => ?_
      simp only [mark, bind_eq_ok, token_eq_ok, pure_apply, Reply.ok.injEq] at hr
      obtain ⟨args, _, ha, t', _, ⟨rfl, -⟩, -, rfl⟩ := hr
      have := (argumentsRule_sound h).length_le ha
      simp only [List.length_cons] at this
      omega
    · refine bind_shrinking (token_shrinking _ "") fun t ts e rest hr => ?_
      rw [bind_eq_ok] at hr
      obtain ⟨⟨n, s⟩, _, hn, hr⟩ := hr
      obtain ⟨t', rfl, -, -⟩ := name_eq_ok.1 hn
      obtain ⟨-, rfl⟩ := Reply.ok.inj hr
      simp

/-- **Calls and members.** Where a phrase with calls and members behind it stands, reading goes on
behind them.

**Proof sketch.** Induction on the phrase, as for `binaryRule_reaches`: the phrase in front is
reached, the next token is a parenthesis or a point, and the repetition makes one more round. -/
lemma suffixed_reaches (hs : expression.Sound Expr.bare P) (hE : E.StartsWith opensExpr)
    (he : expression.Complete Expr.bare E (fun _ => Ends) deep) (hg : ReadsGroup group G deep)
    {ks : List TokenKind} {e : Expr} (h : Suffixed (Primary G) E ks e) :
    ∀ {ts : List Token} {ks' : List TokenKind}, kinds ts = ks ++ ks' →
      ((primaryRule group >>= iterate (postfixStep expression)) ts).Reaches
        (iterate (postfixStep expression)) Expr.bare e ks' deep := by
  induction h with
  | primary h =>
    intro ts ks' hk
    exact (primaryRule_complete hg h hk trivial).andThen
  | @call ks₁ ks₂ f args _ ha ih =>
    intro ts ks' hk
    have hk' : kinds ts = ks₁ ++ .punct .lparen :: (ks₂ ++ .punct .rparen :: ks') := by
      simpa using hk
    refine (ih hk').trans fun b rest hb hrest => ?_
    have hpeek : peek rest = .punct .lparen := by rw [peek_eq_firstKind, hrest, firstKind_cons]
    rw [iterate_of_some (postfixStep_advancing hs)
      (postfixStep_eq_some.2 (.inl ⟨hpeek, rfl⟩))]
    refine Gives.andThen ?_
    exact (token_gives hrest).bind fun _ _ _ hrest₁ =>
      (argumentsRule_complete hE he ha hrest₁ rfl).bind fun bs _ hbs hrest₂ =>
        (token_gives hrest₂).bind fun _ _ _ hrest₃ =>
          .here (by rw [Expr.bare, Expr.bareAll_eq_map, hb, hbs]) hrest₃
  | @member ks₁ o n _ ih =>
    intro ts ks' hk
    have hk' : kinds ts = ks₁ ++ .punct .dot :: .identifier n :: ks' := by simpa using hk
    refine (ih hk').trans fun b rest hb hrest => ?_
    have hpeek : peek rest = .punct .dot := by rw [peek_eq_firstKind, hrest, firstKind_cons]
    rw [iterate_of_some (postfixStep_advancing hs)
      (postfixStep_eq_some.2 (.inr ⟨hpeek, rfl⟩))]
    refine Gives.andThen ?_
    refine (token_gives hrest).bind fun _ _ _ hrest₁ => (name_gives hrest₁).bind ?_
    rintro ⟨m, s⟩ _ hm hrest₂
    obtain rfl : m = n := hm
    exact .here (by rw [Expr.bare, hb]) hrest₂

/-- Completeness of operators in front of operands. -/
lemma prefixRule_complete (hs : expression.Sound Expr.bare P) (hE : E.StartsWith opensExpr)
    (ho : operand.Complete Expr.bare O (fun _ => Stops 0) deep)
    (he : expression.Complete Expr.bare E (fun _ => Ends) deep) (hg : ReadsGroup group G deep) :
    (prefixRule operand expression group).Complete Expr.bare (Signed O E G) (fun _ => Stops 0)
      deep := by
  intro ts ks e ks' h hk hstop
  have hpeek : peek ts = firstKind (ks ++ ks') := by rw [peek_eq_firstKind, hk]
  rw [prefixRule, next_bind, hpeek]
  cases h with
  | negation h =>
    exact (token_gives hk).bind fun _ _ _ hrest =>
      (ho h hrest hstop).bind fun b _ hb hrest' => .here (by rw [Expr.bare, hb]) hrest'
  | minus h =>
    exact (token_gives hk).bind fun _ _ _ hrest =>
      (ho h hrest hstop).bind fun b _ hb hrest' =>
        .here (by rw [Expr.join, Expr.bare, Expr.bare, hb]) hrest'
  | plain h =>
    have hreach := suffixed_reaches hs hE he hg h hk
    obtain ⟨k, ks, rfl, hopen⟩ := suffixed_startsWith primary_startsWith h
    rw [List.cons_append, firstKind_cons]
    split
    · exact absurd hopen (by decide)
    · exact absurd hopen (by decide)
    · refine hreach.trans fun b rest hb hrest => ?_
      -- neither a parenthesis nor a point is ahead, so the repetition ends here
      have hnone : postfixStep expression b (peek rest) = none := by
        rw [Option.eq_none_iff_forall_ne_some]
        intro r hr
        rw [peek_eq_firstKind, hrest] at hr
        rcases postfixStep_eq_some.1 hr with ⟨hp, -⟩ | ⟨hp, -⟩
        · exact hstop.1 hp
        · exact hstop.2.1 hp
      exact Gives.of_ok (iterate_of_none hnone) hb hrest

/-- **Completeness of operands**: an operand nested at most `need` deep is read with `depth`
levels left, unless there are fewer than it needs.

**Proof sketch.** Strong induction on `need`, for all `depth` at once.  Without a level left the
limit is met at once.  Otherwise both numbers go down together: by one behind an operator and
inside a call, by two inside parentheses. -/
lemma operandRule_complete (need depth : Nat) :
    (operandRule depth).Complete Expr.bare (Operand need) (fun _ => Stops 0) (depth < need) := by
  induction need using Nat.strongRecOn generalizing depth with
  | _ need ih =>
    cases need with
    | zero => intro ts ks e ks' h; exact h.elim
    | succ need =>
      cases depth with
      | zero =>
        intro ts ks e ks' _ _ _
        exact .inr ⟨Nat.succ_pos need, .expression, ts.head?, ts, rfl⟩
      | succ depth =>
        rw [operandRule_succ, operand_succ]
        have hsound := operandRule_sound depth
        have hstart := operand_startsWith depth
        have ho : (operandRule depth).Complete Expr.bare (Operand need) (fun _ => Stops 0)
            (depth + 1 < need + 1) :=
          (ih need (Nat.lt_succ_self need) depth).mono (fun _ _ => id) Nat.succ_lt_succ
        refine prefixRule_complete (expressionRule_sound hsound)
          (expression_startsWith (operand_startsWith need)) ho
          (expressionRule_complete hsound hstart (operand_startsWith need) ho) ?_
        intro ts ks e ks' hg hk
        cases need with
        | zero => exact hg.elim
        | succ need =>
          cases depth with
          | zero => exact .inr ⟨by omega, .expression, ts.head?, ts, rfl⟩
          | succ depth =>
            have hinner : (operandRule depth).Complete Expr.bare (Operand need)
                (fun _ => Stops 0) (depth + 1 + 1 < need + 1 + 1) :=
              (ih need (by omega) depth).mono (fun _ _ => id) (by omega)
            exact groupRule_reads (expressionRule_complete (operandRule_sound depth)
              (operand_startsWith depth) (operand_startsWith need) hinner) hg hk

/-! ## Declarations and blocks -/

/-- The name of a type is read as that type. -/
lemma typeRule_gives {ts : List Token} {k : TokenKind} {ks : List TokenKind} {t : Ty}
    (hk : kinds ts = k :: ks) (ht : tyOfKind? k = some t) :
    (typeRule ts).Gives (·.1) t ks deep := by
  obtain ⟨u, rest, rfl, rfl, hrest⟩ := kinds_eq_cons hk
  exact .of_ok (typeRule_eq_ok.2 ⟨rfl, ht⟩) rfl hrest

/-- Completeness of declarations. -/
lemma declarationRule_complete (h : expression.Complete Expr.bare E (fun _ => Ends) deep) :
    (declarationRule expression).Complete Stmt.bare (Declaration E) (fun _ _ => True) deep := by
  intro ts ks s ks' hd hk _
  rw [declarationRule]
  cases hd with
  | @default k t v n htype hv =>
    refine (typeRule_gives hk htype).bind ?_
    rintro ⟨t', start⟩ _ ht hk₁
    obtain rfl : t' = t := ht
    refine (name_gives hk₁).bind ?_
    rintro ⟨m, span⟩ rest hm hk₂
    obtain rfl : m = n := hm
    simp only [hv]
    rw [next_bind, if_neg (by simp [peek_eq_firstKind, hk₂])]
    exact (token_gives hk₂).bind fun _ _ _ hk₃ => .here (by rw [Stmt.bare, Expr.bare]) hk₃
  | @value ks k t n e htype hvoid he =>
    refine (typeRule_gives hk htype).bind ?_
    rintro ⟨t', start⟩ _ ht hk₁
    obtain rfl : t' = t := ht
    refine (name_gives hk₁).bind ?_
    rintro ⟨m, span⟩ rest hm hk₂
    obtain rfl : m = n := hm
    obtain ⟨v, hv⟩ : ∃ v, t'.default? = some v := by
      cases t' <;> first | exact ⟨_, rfl⟩ | exact absurd rfl hvoid
    simp only [hv]
    rw [next_bind, if_pos (by rw [peek_eq_firstKind, hk₂]; rfl)]
    refine (token_gives hk₂).bind fun _ _ _ hk₃ => ?_
    have hk₄ : _ = ks ++ .punct .semi :: ks' := hk₃.trans (by simp)
    exact (h he hk₄ (.of_firstKind (.inr (.inr rfl)))).bind fun b _ hb hk₅ =>
      (token_gives hk₅).bind fun _ _ _ hk₆ => .here (by rw [Stmt.bare, hb]) hk₆

/-- A statement that is no declaration does not start with a type. -/
lemma isTypeName_of_opensStmt {k : TokenKind} (h : opensStmt k = true) : k.isTypeName = false := by
  cases k with
  | keyword w => cases w <;> first | rfl | exact absurd h (by decide)
  | _ => rfl

/-- Whether a word is misspelled is told by two tokens. -/
lemma misspelled_append {ks : List TokenKind} (h : 2 ≤ ks.length) (ks' : List TokenKind) :
    misspelled (ks ++ ks') = misspelled ks := by
  rcases ks with _ | ⟨k, _ | ⟨k', ks⟩⟩
  · simp at h
  · simp at h
  · exact misspelled_cons_cons k k' _ _

/-- A statement has two tokens or more. -/
lemma form_length (hE : E.StartsWith opensExpr) {ks : List TokenKind} {s : Stmt}
    (h : Form E S ks s) : 2 ≤ ks.length := by
  cases h with
  | eval he =>
    obtain ⟨k, ks, rfl, -⟩ := hE he
    simp
  | block hb => cases hb; simp
  | ifThen | ifElse | while_ | returnNone | returnSome => simp

/-- The tokens do not go on with an `else` that a statement would take. -/
def ElseStops (s : Stmt) (ks : List TokenKind) : Prop :=
  s.endsOpen = true → firstKind ks ≠ .keyword .else_

/-- Completeness of what stands in a block. -/
lemma itemRule_complete (hS : S.StartsWith opensStmt) (hlen : ∀ ⦃ks s⦄, S ks s → 2 ≤ ks.length)
    (he : expression.Complete Expr.bare E (fun _ => Ends) deep)
    (hs : statement.Complete Stmt.bare S ElseStops deep) :
    (itemRule expression statement).Complete Stmt.bare (Item E S)
      (fun _ ks => firstKind ks ≠ .keyword .else_) deep := by
  intro ts ks s ks' h hk helse
  have hpeek : peek ts = firstKind (ks ++ ks') := by rw [peek_eq_firstKind, hk]
  unfold itemRule
  cases h with
  | declaration hd =>
    have htype : (peek ts).isTypeName = true := by
      rw [hpeek]
      cases hd with
      | default ht _ => exact isTypeName_of_tyOfKind? ht
      | value ht _ _ => exact isTypeName_of_tyOfKind? ht
    rw [if_pos htype]
    exact declarationRule_complete he hd hk trivial
  | statement h hclear =>
    have htype : (peek ts).isTypeName = false := by
      obtain ⟨k, ks, rfl, hopen⟩ := hS h
      rw [hpeek]
      exact isTypeName_of_opensStmt hopen
    have hnone : misspelledType? ts = none := by
      rw [misspelledType?_eq_none, hk, misspelled_append (hlen h), hclear]
    simp only [htype, Bool.false_eq_true, ↓reduceIte, hnone]
    exact hs h hk fun _ => helse

/-- What stands in a block starts neither with a closing brace nor with `else`. -/
lemma opensItem_ne {k : TokenKind} (h : opensItem k = true) :
    k ≠ .punct .rbrace ∧ k ≠ .endOfFile ∧ k ≠ .keyword .else_ := by
  refine ⟨?_, ?_, ?_⟩ <;> rintro rfl <;>
    exact absurd h (by decide)

/-- Completeness of blocks. -/
lemma blockRule_complete (hS : S.StartsWith opensStmt) (hlen : ∀ ⦃ks s⦄, S ks s → 2 ≤ ks.length)
    (he : expression.Complete Expr.bare E (fun _ => Ends) deep)
    (hs : statement.Complete Stmt.bare S ElseStops deep) :
    (blockRule expression statement).Complete Block.bare (Braces E S) (fun _ _ => True) deep := by
  intro ts ks b ks' h hk _
  cases h with
  | @mk ks body h =>
    rw [blockRule]
    refine (token_gives hk).bind fun opening rest _ hrest => ?_
    have hrest' : kinds rest = ks ++ .punct .rbrace :: ks' := hrest.trans (by simp)
    have hstart : (Item E S).StartsWith opensItem := item_startsWith hS
    have hmany : (many inBlock (itemRule expression statement) rest).Gives (List.map Stmt.bare) body
        (.punct .rbrace :: ks') deep := by
      refine many_gives hstart ?_ ?_ (itemRule_complete hS hlen he hs) ?_ ?_ h hrest'
      · intro ts ks s ks' hi hk
        obtain ⟨k, ks, rfl, hopen⟩ := hstart hi
        have hne := opensItem_ne hopen
        simp [inBlock, peek_eq_firstKind, hk, hne]
      · intro ks s ks' hi
        obtain ⟨k, ks, rfl, hopen⟩ := hstart hi
        exact (opensItem_ne hopen).2.2
      · intro ts hk
        simp [inBlock, peek_eq_firstKind, hk]
      · simp
    exact hmany.bind fun bs _ hbs hk₁ => (token_gives hk₁).bind fun _ _ _ hk₂ =>
      .here (by rw [Block.bare, hbs]) hk₂

/-! ## Statements -/

/-- A condition is read between its parentheses. -/
lemma conditionRule_gives (he : expression.Complete Expr.bare E (fun _ => Ends) deep)
    {place : String} {ts : List Token} {ks ks' : List TokenKind} {c : Expr} (hc : E ks c)
    (hk : kinds ts = .punct .lparen :: (ks ++ .punct .rparen :: ks')) :
    (conditionRule expression place ts).Gives Expr.bare c ks' deep := by
  rw [conditionRule]
  exact (token_gives hk).bind fun _ _ _ hk₁ =>
    (he hc hk₁ (.of_firstKind (.inl rfl))).bind fun b _ hb hk₂ =>
      (token_gives hk₂).bind fun _ _ _ hk₃ => .here hb hk₃

/-- An `if` without `else` is read, as long as no `else` follows. -/
lemma ifRule_gives_ifThen (he : expression.Complete Expr.bare E (fun _ => Ends) deep)
    (hs : statement.Complete Stmt.bare S ElseStops deep) {ts : List Token}
    {ks ks₁ ks' : List TokenKind} {c : Expr} {s : Stmt} (hc : E ks c) (hs₁ : S ks₁ s)
    (hk : kinds ts =
      .keyword .if_ :: .punct .lparen :: (ks ++ .punct .rparen :: (ks₁ ++ ks')))
    (helse : firstKind ks' ≠ .keyword .else_) :
    (ifRule expression statement ts).Gives Stmt.bare (.ifThen c s {}) ks' deep := by
  rw [ifRule]
  refine (token_gives hk).bind fun _ _ _ hk₁ => ?_
  refine (conditionRule_gives he hc hk₁).bind fun b _ hb hk₂ => ?_
  refine (hs hs₁ hk₂ fun _ => helse).bind fun s' rest hs' hk₃ => ?_
  rw [next_bind, if_neg (by rw [peek_eq_firstKind, hk₃]; exact helse)]
  exact .here (by rw [Stmt.bare, hb, hs']) hk₃

/-- A branch that an `else` cannot belong to is read up to the `else` behind it. -/
lemma ifRule_gives_ifElse (he : expression.Complete Expr.bare E (fun _ => Ends) deep)
    (hs : statement.Complete Stmt.bare S ElseStops deep) {ts : List Token}
    {ks ks₁ ks₂ ks' : List TokenKind} {c : Expr} {s t : Stmt} (hc : E ks c) (hs₁ : S ks₁ s)
    (hclosed : s.endsOpen = false) (hs₂ : S ks₂ t)
    (hk : kinds ts = .keyword .if_ :: .punct .lparen ::
      (ks ++ .punct .rparen :: (ks₁ ++ .keyword .else_ :: (ks₂ ++ ks'))))
    (helse : ElseStops t ks') :
    (ifRule expression statement ts).Gives Stmt.bare (.ifElse c s t {}) ks' deep := by
  rw [ifRule]
  refine (token_gives hk).bind fun _ _ _ hk₁ => ?_
  refine (conditionRule_gives he hc hk₁).bind fun b _ hb hk₂ => ?_
  refine (hs hs₁ hk₂ fun hopen => by simp [hclosed] at hopen).bind fun s' rest hs' hk₃ => ?_
  rw [next_bind, if_pos (by rw [peek_eq_firstKind, hk₃]; rfl)]
  exact (token_gives hk₃).bind fun _ _ _ hk₄ =>
    (hs hs₂ hk₄ helse).bind fun t' _ ht' hk₅ => .here (by rw [Stmt.bare, hb, hs', ht']) hk₅

/-- A loop is read with its condition and its body. -/
lemma whileRule_gives (he : expression.Complete Expr.bare E (fun _ => Ends) deep)
    (hs : statement.Complete Stmt.bare S ElseStops deep) {ts : List Token}
    {ks ks₁ ks' : List TokenKind} {c : Expr} {s : Stmt} (hc : E ks c) (hs₁ : S ks₁ s)
    (hk : kinds ts =
      .keyword .while_ :: .punct .lparen :: (ks ++ .punct .rparen :: (ks₁ ++ ks')))
    (helse : ElseStops s ks') :
    (whileRule expression statement ts).Gives Stmt.bare (.while_ c s {}) ks' deep := by
  rw [whileRule]
  exact (token_gives hk).bind fun _ _ _ hk₁ =>
    (conditionRule_gives he hc hk₁).bind fun b _ hb hk₂ =>
      (hs hs₁ hk₂ helse).bind fun s' _ hs' hk₃ => .here (by rw [Stmt.bare, hb, hs']) hk₃

/-- A bare `return` is read. -/
lemma returnRule_gives_none {ts : List Token} {ks' : List TokenKind}
    (hk : kinds ts = .keyword .return_ :: .punct .semi :: ks') :
    (returnRule expression ts).Gives Stmt.bare (.return_ none {}) ks' deep := by
  rw [returnRule]
  refine (token_gives hk).bind fun _ rest _ hk₁ => ?_
  rw [next_bind, if_pos (by rw [peek_eq_firstKind, hk₁]; rfl)]
  exact (token_gives hk₁).bind fun _ _ _ hk₂ => .here rfl hk₂

/-- A `return` is read with its value. -/
lemma returnRule_gives_some (hE : E.StartsWith opensExpr)
    (he : expression.Complete Expr.bare E (fun _ => Ends) deep) {ts : List Token}
    {ks ks' : List TokenKind} {e : Expr} (h : E ks e)
    (hk : kinds ts = .keyword .return_ :: (ks ++ .punct .semi :: ks')) :
    (returnRule expression ts).Gives Stmt.bare (.return_ (some e) {}) ks' deep := by
  rw [returnRule]
  refine (token_gives hk).bind fun _ rest _ hk₁ => ?_
  have hpeek : peek rest ≠ .punct .semi := by
    obtain ⟨k, ks, rfl, hopen⟩ := hE h
    rw [peek_eq_firstKind, hk₁, List.cons_append, firstKind_cons]
    rintro rfl
    exact absurd hopen (by decide)
  have hvalue : ((some <$> expression) rest).Gives (Option.map Expr.bare) (some e)
      (.punct .semi :: ks') deep := by
    rw [map_eq_bind]
    exact (he h hk₁ (.of_firstKind (.inr (.inr rfl)))).bind fun b _ hb hk₂ =>
      .here (by rw [Option.map_some, hb]) hk₂
  rw [next_bind, if_neg hpeek]
  exact hvalue.bind fun v _ hv hk₂ => (token_gives hk₂).bind fun _ _ _ hk₃ =>
    .here (by rw [Stmt.bare, hv]) hk₃

/-- An expression with a semicolon is read as a statement. -/
lemma evalRule_gives (he : expression.Complete Expr.bare E (fun _ => Ends) deep)
    {ts : List Token} {ks ks' : List TokenKind} {e : Expr} (h : E ks e)
    (hk : kinds ts = ks ++ .punct .semi :: ks') :
    (evalRule expression ts).Gives Stmt.bare (.eval e {}) ks' deep := by
  rw [evalRule]
  exact (he h hk (.of_firstKind (.inr (.inr rfl)))).bind fun b _ hb hk₁ =>
    (token_gives hk₁).bind fun _ _ _ hk₂ => .here (by rw [Stmt.bare, hb]) hk₂

/-- **Completeness of the forms of statements.** The first token tells the form.

**Proof sketch.** One case for each production; the rule of the form is found by the token that
the production starts with, and for an expression by the fact that no expression starts with such
a token. -/
lemma statementFormRule_complete (hE : E.StartsWith opensExpr) (hS : S.StartsWith opensStmt)
    (hlen : ∀ ⦃ks s⦄, S ks s → 2 ≤ ks.length)
    (he : expression.Complete Expr.bare E (fun _ => Ends) deep)
    (hs : statement.Complete Stmt.bare S ElseStops deep) :
    (statementFormRule expression statement).Complete Stmt.bare (Form E S) ElseStops deep := by
  intro ts ks s ks' h hk helse
  have hpeek : peek ts = firstKind (ks ++ ks') := by rw [peek_eq_firstKind, hk]
  rw [statementFormRule, next_bind, hpeek]
  cases h with
  | @eval ks₁ e h =>
    have hk' : kinds ts = ks₁ ++ .punct .semi :: ks' := hk.trans (by simp)
    have hgives := evalRule_gives he h hk'
    obtain ⟨k, ks, rfl, hopen⟩ := hE h
    simp only [List.cons_append, firstKind_cons]
    split
    case h_5 => exact hgives
    all_goals exact absurd hopen (by decide)
  | block h =>
    have hfirst : firstKind (ks ++ ks') = .punct .lbrace := by cases h; rfl
    rw [hfirst]
    exact (blockRule_complete hS hlen he hs h hk trivial).bind fun b _ hb hrest =>
      .here (by rw [Stmt.bare, Stmt.bareAll_eq_map, ← hb, Block.bare]) hrest
  | ifThen hc hs₁ => exact ifRule_gives_ifThen he hs hc hs₁ (hk.trans (by simp)) (helse rfl)
  | ifElse hc hs₁ hclosed hs₂ =>
    exact ifRule_gives_ifElse he hs hc hs₁ hclosed hs₂ (hk.trans (by simp)) helse
  | while_ hc hs₁ => exact whileRule_gives he hs hc hs₁ (hk.trans (by simp)) helse
  | returnNone => exact returnRule_gives_none hk
  | returnSome h => exact returnRule_gives_some hE he h (hk.trans (by simp))

/-- The completeness of expressions at a given depth. -/
lemma expressionRule_complete_at (need depth : Nat) :
    (expressionRule (operandRule depth)).Complete Expr.bare (Expression (Operand need))
      (fun _ => Ends) (depth < need) :=
  expressionRule_complete (operandRule_sound depth) (operand_startsWith depth)
    (operand_startsWith need) (operandRule_complete need depth)

/-- A statement of any depth has two tokens or more. -/
lemma statement_length {depth : Nat} {ks : List TokenKind} {s : Stmt} (h : Statement depth ks s) :
    2 ≤ ks.length := by
  cases depth with
  | zero => exact h.elim
  | succ depth => exact form_length (expression_startsWith (operand_startsWith depth)) h

/-- **Completeness of statements**: a statement nested at most `need` deep is read with `depth`
levels left, unless there are fewer than it needs. -/
lemma statementRule_complete (need depth : Nat) :
    (statementRule depth).Complete Stmt.bare (Statement need) ElseStops (depth < need) := by
  induction need generalizing depth with
  | zero => intro ts ks s ks' h; exact h.elim
  | succ need ih =>
    cases depth with
    | zero =>
      intro ts ks s ks' _ _ _
      exact .inr ⟨Nat.succ_pos need, .statement, ts.head?, ts, rfl⟩
    | succ depth =>
      have he := (expressionRule_complete_at need depth).mono (fun _ _ => id) Nat.succ_lt_succ
      have hs := (ih depth).mono (fun _ _ => id) Nat.succ_lt_succ
      exact fun _ _ _ _ h hk helse =>
        statementFormRule_complete (expression_startsWith (operand_startsWith need))
          (statement_startsWith need) (fun _ _ => statement_length) he hs h hk helse

/-- Completeness of the bodies of functions. -/
lemma bodyRule_complete (need : Nat) :
    bodyRule.Complete Block.bare (Body need) (fun _ _ => True) (maxDepth < need) :=
  blockRule_complete (statement_startsWith need) (fun _ _ => statement_length)
    (expressionRule_complete_at need maxDepth) (statementRule_complete need maxDepth)

/-! ## Programs -/

/-- Completeness of imports. -/
lemma importRule_complete :
    importRule.Complete Import.bare ImportLine (fun _ _ => True) deep := by
  intro ts ks i ks' h hk _
  cases h with
  | @mk n =>
    rw [importRule]
    refine (token_gives hk).bind fun _ _ _ hk₁ => (name_gives hk₁).bind ?_
    rintro ⟨m, span⟩ _ hm hk₂
    obtain rfl : m = n := hm
    exact (token_gives hk₂).bind fun _ _ _ hk₃ => .here (by rw [Import.bare]) hk₃

/-- The name of a type is no mark. -/
lemma tyOfKind?_ne {k : TokenKind} {t : Ty} (h : tyOfKind? k = some t) (p : Punct) :
    k ≠ .punct p := by
  rintro rfl
  simp [tyOfKind?] at h

/-- Completeness of parameters, up to the closing parenthesis. -/
lemma paramsRule_complete (f : String) :
    (paramsRule f).Complete (List.map Param.bare) Parameters
      (fun _ ks => firstKind ks = .punct .rparen) deep := by
  intro ts ks ps ks' h hk hclose
  rw [paramsRule, next_bind]
  cases h with
  | none =>
    rw [if_pos (by rw [peek_eq_firstKind, hk]; exact hclose)]
    exact Reaches.here rfl hk
  | @one k t n htype =>
    rw [if_neg (by rw [peek_eq_firstKind, hk]; exact tyOfKind?_ne htype .rparen)]
    refine (typeRule_gives hk htype).bind ?_
    rintro ⟨t', start⟩ _ ht hk₁
    obtain rfl : t' = t := ht
    refine (name_gives hk₁).bind ?_
    rintro ⟨m, span⟩ rest hm hk₂
    obtain rfl : m = n := hm
    have hk₂ : kinds rest = ks' := hk₂
    dsimp only
    rw [next_bind, if_neg (by rw [peek_eq_firstKind, hk₂, hclose]; simp)]
    exact .here rfl hk₂

/-- Completeness of functions. -/
lemma functionRule_complete (need : Nat) :
    functionRule.Complete Function.bare (FunctionText need) (fun _ _ => True)
      (maxDepth < need) := by
  intro ts ks f ks' h hk _
  cases h with
  | @mk ks₁ ks₂ k t n ps b hstarts htype hparams hbody =>
    rw [functionRule]
    refine (typeRule_gives hk htype).bind ?_
    rintro ⟨t', start⟩ _ ht hk₁
    obtain rfl : t' = t := ht
    refine (token_gives hk₁).bind fun _ _ _ hk₂ => ?_
    refine (name_gives hk₂).bind ?_
    rintro ⟨m, span⟩ _ hm hk₃
    obtain rfl : m = n := hm
    refine (token_gives hk₃).bind fun _ rest _ hk₄ => ?_
    have hk₄ : kinds rest = ks₁ ++ .punct .rparen :: (ks₂ ++ ks') := hk₄.trans (by simp)
    refine (paramsRule_complete m hparams hk₄ rfl).bind fun ps' _ hps hk₅ => ?_
    refine (token_gives hk₅).bind fun _ _ _ hk₆ => ?_
    exact (bodyRule_complete need hbody hk₆ trivial).bind fun b' _ hb hk₇ =>
      .here (by rw [Function.bare, hps, hb]) hk₇

/-- Completeness of `main`. -/
lemma mainRule_complete (need : Nat) :
    mainRule.Complete Function.bare (MainText need) (fun _ _ => True) (maxDepth < need) := by
  intro ts ks f ks' h hk _
  cases h with
  | mk hbody =>
    rw [mainRule]
    exact (token_gives hk).bind fun _ _ _ hk₁ => (token_gives hk₁).bind fun _ _ _ hk₂ =>
      (token_gives hk₂).bind fun _ _ _ hk₃ => (bodyRule_complete need hbody hk₃ trivial).bind
        fun b _ hb hk₄ => .here (by rw [Function.bare, hb]; rfl) hk₄

/-- An import starts with `use`. -/
lemma importLine_startsWith : ImportLine.StartsWith (· = .keyword .use) := by
  intro ks i h
  cases h
  exact ⟨_, _, rfl, by simp⟩

/-- A function starts with a type. -/
lemma functionText_startsWith (need : Nat) :
    (FunctionText need).StartsWith TokenKind.startsFunction := by
  intro ks f h
  cases h with
  | mk hstarts _ _ _ => exact ⟨_, _, rfl, hstarts⟩

/-- Behind the imports stands a function or `main`, so no import is ahead. -/
lemma importAhead_eq_false {need : Nat} {ts : List Token} {ks₂ ks₃ ks₄ : List TokenKind}
    {fs : List Function} {m : Function} (hf : Repeated (FunctionText need) ks₂ fs)
    (hm : MainText need ks₃ m) (hk : kinds ts = ks₂ ++ (ks₃ ++ ks₄)) :
    importAhead ts = false := by
  rw [importAhead, peek_eq_firstKind, hk, decide_eq_false_iff_not]
  cases hf with
  | nil => cases hm; simp
  | cons hf _ =>
    obtain ⟨k, ks, rfl, hstarts⟩ := functionText_startsWith need hf
    rw [List.cons_append, List.cons_append, firstKind_cons]
    rintro rfl
    simp [TokenKind.startsFunction] at hstarts

/-- Where a function stands, the rules see it ahead. -/
lemma functionAhead_of_text {need : Nat} {ts : List Token} {ks ks' : List TokenKind}
    {f : Function} (h : FunctionText need ks f) (hk : kinds ts = ks ++ ks') :
    functionAhead ts = true := by
  obtain ⟨k, ks, rfl, hstarts⟩ := functionText_startsWith need h
  obtain ⟨t, rest, rfl, rfl, -⟩ := kinds_eq_cons hk
  simp [functionAhead, hstarts]

/-- In front of `main` no function is ahead. -/
lemma functionAhead_main {ts : List Token} {ks : List TokenKind}
    (hk : kinds ts = .keyword .main :: ks) : functionAhead ts = false := by
  obtain ⟨t, rest, rfl, ht, -⟩ := kinds_eq_cons hk
  simp [functionAhead, ht, TokenKind.startsFunction]

/-- **Completeness of programs**: tokens that spell a program nested at most `need` deep are read
as this program, unless `need` is beyond the limit.

**Proof sketch.** The imports are read up to the first function or `main`, the functions up to
`main`, and behind `main` no token is left. -/
lemma programRule_complete {need : Nat} {file : String} {ts : List Token} {p : Program}
    (h : SentenceWithin need (kinds ts ++ [.endOfFile]) p) :
    (programRule file ts).Gives Program.bare { p with file := file } [] (maxDepth < need) := by
  generalize hk : kinds ts ++ [.endOfFile] = ks at h
  cases h with
  | @mk ks₁ ks₂ ks₃ is fs m file' hi hf hm =>
    have hk : kinds ts = ks₁ ++ (ks₂ ++ ks₃) := by
      have : kinds ts ++ [.endOfFile] = ks₁ ++ (ks₂ ++ ks₃) ++ [.endOfFile] := by simpa using hk
      exact List.append_cancel_right this
    rw [programRule]
    refine Gives.bind (many_gives importLine_startsWith ?_ (fun _ _ _ _ => trivial)
      importRule_complete ?_ trivial hi hk) fun is' rest his hk₁ => ?_
    · intro ts ks i ks' hi hk
      cases hi
      simp [importAhead, peek_eq_firstKind, hk]
    · intro ts hk
      have hk' : kinds ts = ks₂ ++ (ks₃ ++ []) := by rw [hk, List.append_nil]
      exact importAhead_eq_false hf hm hk'
    refine Gives.bind (many_gives (functionText_startsWith need)
      (fun _ _ _ _ => functionAhead_of_text) (fun _ _ _ _ => trivial)
      (functionRule_complete need) ?_ trivial hf hk₁) fun fs' rest' hfs hk₂ => ?_
    · intro ts hk
      cases hm
      exact functionAhead_main hk
    have hmain : peek rest' = .keyword .main := by
      rw [peek_eq_firstKind, hk₂]
      cases hm
      rfl
    rw [next_bind, if_pos hmain]
    refine (mainRule_complete need hm (hk₂.trans (List.append_nil ks₃).symm) trivial).bind
      fun m' rest'' hm' hk₃ => ?_
    rw [next_bind, if_pos (by rw [peek_eq_firstKind, hk₃]; rfl)]
    exact .here (by rw [Program.bare, his, hfs, hm']) hk₃

end Idyl
