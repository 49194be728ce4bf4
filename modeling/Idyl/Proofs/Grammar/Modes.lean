import Mathlib
import Idyl.Proofs.Grammar.Shape
import Idyl.Proofs.Recursion.Appended

/-!
# Programs and libraries agree on functions

A library is read by one loop over imports and functions, a program by one loop for its imports and
one for its functions, and then `main`.  Where all imports of a library come first, the two read the
same: with an empty `main` behind them the tokens of the library are a program with the same
functions.

## Main definitions

* `Idyl.Grammar.ImportsFirst` — tokens whose imports come before their functions.
* `Idyl.Grammar.EmptyMain` — the tokens of an empty `main`.

## Main results

* `Idyl.Grammar.functionText_noUse` — there are no imports inside of a function.
* `Idyl.Grammar.libraryRule_iff` — libraries whose imports come first, by the two loops of programs.
* `Idyl.Grammar.programRule_iff` — programs with an empty `main` at their end, by the same loops.
* `Idyl.Grammar.library_iff_program` — the two together.
-/

set_option autoImplicit false

namespace Idyl.Grammar

/-! ## No imports inside of functions -/

section NoUse

variable {α : Type} {operand expression group primary : Phrase Expr} {statement : Phrase Stmt}

/-- Phrases without the word `use`. -/
def NoUse (phrase : Phrase α) : Prop := ∀ ⦃ks a⦄, phrase ks a → .keyword .use ∉ ks

/-- Phrases one after the other. -/
lemma repeated_noUse {phrase : Phrase α} (h : NoUse phrase) : NoUse (Repeated phrase) := by
  intro ks as has
  induction has with
  | nil => simp
  | cons ha _ ih => simpa using ⟨h ha, ih⟩

/-- The word `use` is no operator. -/
lemma joined_noUse {level : Nat} (h : NoUse operand) : NoUse (Joined level operand) := by
  intro ks e he
  induction he with
  | single he => exact h he
  | join _ hsign hright ih =>
    have hk : ∀ {level k op}, Sign level k op → .keyword .use ≠ k := by
      rintro level k op hop rfl
      cases hop
    simpa using ⟨ih, hk hsign, h hright⟩

/-- Operators of all levels. -/
lemma binary_noUse (h : NoUse operand) (level : Nat) : NoUse (Binary operand level) := by
  induction level with
  | zero => exact h
  | succ level ih => exact joined_noUse ih

/-- Neither is it the sign of an assignment. -/
lemma expression_noUse (h : NoUse operand) : NoUse (Expression operand) := by
  intro ks e he
  induction he with
  | value he => exact binary_noUse h _ he
  | assign ht _ ih => simpa using ⟨binary_noUse h _ ht, ih⟩

/-- Nor is it a literal or a name. -/
lemma primary_noUse (h : NoUse group) : NoUse (Primary group) := by
  intro ks e he
  cases he with
  | group he => simpa using h he
  | _ => simp

/-- Arguments with commas between them. -/
lemma arguments_noUse (h : NoUse expression) : NoUse (Arguments expression) := by
  have hcomma : NoUse (AfterComma expression) := by
    rintro ks e ⟨he⟩
    simpa using h he
  intro ks es hes
  cases hes with
  | none => simp
  | some hfirst hothers => simpa using ⟨h hfirst, repeated_noUse hcomma hothers⟩

/-- Calls and members. -/
lemma suffixed_noUse (hprimary : NoUse primary) (h : NoUse expression) :
    NoUse (Suffixed primary expression) := by
  intro ks e he
  induction he with
  | primary he => exact hprimary he
  | call _ hargs ih => simpa using ⟨ih, arguments_noUse h hargs⟩
  | member _ ih => simpa using ih

/-- Operators in front of an operand. -/
lemma signed_noUse (hoperand : NoUse operand) (h : NoUse expression) (hgroup : NoUse group) :
    NoUse (Signed operand expression group) := by
  intro ks e he
  cases he with
  | negation he | minus he => simpa using hoperand he
  | plain he => exact suffixed_noUse (primary_noUse hgroup) h he

/-- Operands, by induction over the levels left. -/
lemma operand_noUse (depth : Nat) : NoUse (Operand depth) := by
  induction depth using Nat.strongRecOn with
  | ind depth ih =>
    cases depth with
    | zero => exact fun _ _ he => he.elim
    | succ depth =>
      rw [operand_succ]
      have hoperand := ih depth (Nat.lt_succ_self depth)
      refine signed_noUse hoperand (expression_noUse hoperand) ?_
      cases depth with
      | zero => exact fun _ _ he => he.elim
      | succ inner => exact expression_noUse (ih inner (by omega))

/-- The word `use` is no type. -/
lemma use_ne_of_tyOfKind? {k : TokenKind} {t : Ty} (h : tyOfKind? k = some t) :
    .keyword .use ≠ k := by
  rintro rfl
  cases h

/-- What stands in a block. -/
lemma item_noUse (h : NoUse expression) (hs : NoUse statement) :
    NoUse (Item expression statement) := by
  intro ks s hitem
  cases hitem with
  | declaration hd =>
    cases hd with
    | default htype _ => simpa using use_ne_of_tyOfKind? htype
    | value htype _ hvalue => simpa using ⟨use_ne_of_tyOfKind? htype, h hvalue⟩
  | statement hst _ => exact hs hst

/-- Blocks. -/
lemma braces_noUse (h : NoUse expression) (hs : NoUse statement) :
    NoUse (Braces expression statement) := by
  rintro ks b ⟨hbody⟩
  simpa using repeated_noUse (item_noUse h hs) hbody

/-- The word starts no statement. -/
lemma form_noUse (h : NoUse expression) (hs : NoUse statement) :
    NoUse (Form expression statement) := by
  intro ks s hform
  cases hform with
  | eval he => simpa using h he
  | block hb => exact braces_noUse h hs hb
  | ifThen hc ht => simpa using ⟨h hc, hs ht⟩
  | ifElse hc ht _ he => simpa using ⟨h hc, hs ht, hs he⟩
  | while_ hc hb => simpa using ⟨h hc, hs hb⟩
  | returnNone => simp
  | returnSome he => simpa using h he

/-- Statements, by induction over the levels left. -/
lemma statement_noUse (depth : Nat) : NoUse (Statement depth) := by
  induction depth with
  | zero => exact fun _ _ hs => hs.elim
  | succ depth ih => exact form_noUse (expression_noUse (operand_noUse depth)) ih

/-- **A function holds no import.** -/
lemma functionText_noUse (depth : Nat) : NoUse (FunctionText depth) := by
  intro ks f hf
  cases hf with
  | mk _ htype hparams hbody =>
    have hbody' := braces_noUse (expression_noUse (operand_noUse depth)) (statement_noUse depth)
      hbody
    cases hparams with
    | none => simpa using ⟨use_ne_of_tyOfKind? htype, hbody'⟩
    | one hparam =>
      simpa using ⟨use_ne_of_tyOfKind? htype, use_ne_of_tyOfKind? hparam, hbody'⟩

end NoUse

/-! ## Imports first -/

/-- No import follows a function: behind a word `function` there is no word `use`. -/
def ImportsFirst (ts : List Token) : Prop :=
  (kinds ts).Pairwise fun k k' => k = .keyword .function → k' ≠ .keyword .use

/-- Imports, one after the other. -/
abbrev importsRule : Rule (List Import) := Rule.many importAhead importRule

/-- Functions, one after the other. -/
abbrev functionsRule : Rule (List Function) := Rule.many functionAhead functionRule

/-- Imports and functions, up to the end of the file. -/
abbrev libraryItemsRule : Rule (List (Option Function)) :=
  Rule.many (fun ts => decide (peek ts ≠ .endOfFile)) libraryItemRule

/-- Where a function is ahead, neither an import nor the end of the file is. -/
lemma functionAhead_ne {ts : List Token} (h : functionAhead ts = true) :
    importAhead ts = false ∧ peek ts ≠ .endOfFile := by
  cases ts with
  | nil => cases h
  | cons t ts =>
    cases hk : t.kind with
    | keyword w => cases w <;> simp_all [functionAhead, importAhead, peek, TokenKind.startsFunction]
    | _ => simp_all [functionAhead, importAhead, peek, TokenKind.startsFunction]

section Many

variable {α : Type} {starts : List Token → Bool} {item : Rule α} {ts rest : List Token}

/-- The loop over a list of phrases gives none where none starts. -/
lemma many_eq_nil (h : Rule.Paced starts item) :
    Rule.many starts item ts = .ok [] rest ↔ starts ts = false ∧ rest = ts := by
  cases hstart : starts ts with
  | false =>
    rw [Rule.many_of_false hstart]
    simp [eq_comm]
  | true =>
    rw [Rule.many_of_true h hstart]
    simp only [Rule.bind_eq_ok, Rule.pure_apply, Reply.ok.injEq]
    constructor
    · rintro ⟨_, _, -, _, _, -, hnil, -⟩
      cases hnil
    · rintro ⟨hfalse, -⟩
      cases hfalse

/-- One round of the loop over a list of phrases. -/
lemma many_eq_cons (h : Rule.Paced starts item) {a : α} {as : List α} :
    Rule.many starts item ts = .ok (a :: as) rest ↔
      starts ts = true ∧ ∃ mid, item ts = .ok a mid ∧ Rule.many starts item mid = .ok as rest := by
  cases hstart : starts ts with
  | false =>
    rw [Rule.many_of_false hstart]
    simp
  | true =>
    rw [Rule.many_of_true h hstart]
    simp only [Rule.bind_eq_ok, Rule.pure_apply, Reply.ok.injEq]
    constructor
    · rintro ⟨_, mid, ha, _, _, has, hcons, rfl⟩
      obtain ⟨rfl, rfl⟩ := List.cons.inj hcons
      exact ⟨trivial, mid, ha, has⟩
    · rintro ⟨-, mid, ha, has⟩
      exact ⟨a, mid, ha, as, rest, has, rfl, rfl⟩

end Many

/-- Where an import is ahead, the word `use` is. -/
lemma peek_of_importAhead {ts : List Token} (h : importAhead ts = true) :
    peek ts = .keyword .use := by
  simpa [importAhead] using h

/-- Where an import is ahead, a library takes it and gives nothing. -/
lemma libraryItemRule_of_import {ts : List Token} (h : importAhead ts = true) {o : Option Function}
    {rest : List Token} :
    libraryItemRule ts = .ok o rest ↔ ∃ i, importRule ts = .ok i rest ∧ o = none := by
  rw [libraryItemRule, if_pos h, Rule.bind_eq_ok]
  simp only [Rule.pure_apply, Reply.ok.injEq]
  constructor
  · rintro ⟨i, mid, hi, rfl, rfl⟩
    exact ⟨i, hi, rfl⟩
  · rintro ⟨i, hi, rfl⟩
    exact ⟨i, rest, hi, rfl, rfl⟩

/-- Where a function is ahead, a library takes it and gives it. -/
lemma libraryItemRule_of_function {ts : List Token} (h : functionAhead ts = true)
    {o : Option Function} {rest : List Token} :
    libraryItemRule ts = .ok o rest ↔ ∃ f, functionRule ts = .ok f rest ∧ o = some f := by
  rw [libraryItemRule, if_neg (by simp [(functionAhead_ne h).1]), if_pos h, Rule.map_eq_bind,
    Rule.bind_eq_ok]
  simp only [Rule.pure_apply, Reply.ok.injEq]
  constructor
  · rintro ⟨f, mid, hf, rfl, rfl⟩
    exact ⟨f, hf, rfl⟩
  · rintro ⟨f, hf, rfl⟩
    exact ⟨f, rest, hf, rfl, rfl⟩

/-- A library takes nothing but imports and functions. -/
lemma libraryItemRule_cases {ts rest : List Token} {o : Option Function}
    (h : libraryItemRule ts = .ok o rest) : importAhead ts = true ∨ functionAhead ts = true := by
  unfold libraryItemRule at h
  split_ifs at h with hi hf
  · exact .inl hi
  · exact .inr hf
  · cases h

/-- **Functions up to the end**, read as a library. -/
lemma libraryItems_of_functions {ts : List Token} {fs : List Function}
    (h : functionsRule ts = .ok fs []) : libraryItemsRule ts = .ok (fs.map some) [] := by
  induction fs generalizing ts with
  | nil =>
    obtain ⟨-, rfl⟩ := (many_eq_nil functions_paced).1 h
    rfl
  | cons f fs ih =>
    obtain ⟨hahead, mid, hf, hfs⟩ := (many_eq_cons functions_paced).1 h
    refine (many_eq_cons libraryItems_paced).2 ⟨?_, mid, ?_, ih hfs⟩
    · simpa using (functionAhead_ne hahead).2
    · exact (libraryItemRule_of_function hahead).2 ⟨f, hf, rfl⟩

/-- **Imports first**, read as a library. -/
lemma libraryItems_of_imports {ts mid rest : List Token} {is : List Import}
    {items : List (Option Function)} (his : importsRule ts = .ok is mid)
    (hitems : libraryItemsRule mid = .ok items rest) :
    libraryItemsRule ts = .ok (is.map (fun _ => none) ++ items) rest := by
  induction is generalizing ts with
  | nil =>
    obtain ⟨-, rfl⟩ := (many_eq_nil imports_paced).1 his
    exact hitems
  | cons i is ih =>
    obtain ⟨hahead, mid', hi, his'⟩ := (many_eq_cons imports_paced).1 his
    refine (many_eq_cons libraryItems_paced).2 ⟨?_, mid', ?_, ih his'⟩
    · simp [peek_of_importAhead hahead]
    · exact (libraryItemRule_of_import hahead).2 ⟨i, hi, rfl⟩

/-- **A library without imports** is a list of functions. -/
lemma functions_of_libraryItems {ts : List Token} {items : List (Option Function)}
    (h : libraryItemsRule ts = .ok items []) (huse : .keyword .use ∉ kinds ts) :
    functionsRule ts = .ok (items.filterMap id) [] := by
  induction items generalizing ts with
  | nil =>
    obtain ⟨-, rfl⟩ := (many_eq_nil libraryItems_paced).1 h
    rfl
  | cons o items ih =>
    obtain ⟨-, mid, ho, hos⟩ := (many_eq_cons libraryItems_paced).1 h
    rcases libraryItemRule_cases ho with hahead | hahead
    · have hpeek := peek_of_importAhead hahead
      cases ts with
      | nil => cases hpeek
      | cons t ts => exact absurd (List.mem_cons.2 (.inl hpeek.symm)) huse
    · obtain ⟨f, hf, rfl⟩ := (libraryItemRule_of_function hahead).1 ho
      obtain ⟨ks, hks, -⟩ := functionRule_sound hahead hf
      have huse' : .keyword .use ∉ kinds mid := fun hmem =>
        huse (by rw [hks]; exact List.mem_append_right _ hmem)
      exact (many_eq_cons functions_paced).2 ⟨hahead, mid, hf, ih hos huse'⟩

/-- **A library whose imports come first**, read by the two loops of a program. -/
lemma exists_imports_of_libraryItems {ts : List Token} {items : List (Option Function)}
    (h : libraryItemsRule ts = .ok items []) (hfirst : ImportsFirst ts) :
    ∃ is mid, importsRule ts = .ok is mid ∧ functionsRule mid = .ok (items.filterMap id) [] := by
  induction items generalizing ts with
  | nil =>
    obtain ⟨-, rfl⟩ := (many_eq_nil libraryItems_paced).1 h
    exact ⟨[], [], rfl, rfl⟩
  | cons o items ih =>
    obtain ⟨-, mid, ho, hos⟩ := (many_eq_cons libraryItems_paced).1 h
    rcases libraryItemRule_cases ho with hahead | hahead
    · obtain ⟨i, hi, rfl⟩ := (libraryItemRule_of_import hahead).1 ho
      obtain ⟨ks, hks, -⟩ := importRule_sound hi
      have hfirst' : ImportsFirst mid := by
        unfold ImportsFirst at hfirst
        rw [hks, List.pairwise_append] at hfirst
        exact hfirst.2.1
      obtain ⟨is, rest, his, hfs⟩ := ih hos hfirst'
      exact ⟨i :: is, rest, (many_eq_cons imports_paced).2 ⟨hahead, mid, hi, his⟩, hfs⟩
    · -- behind the first function there is no import, and inside of it there is none
      obtain ⟨f, hf, rfl⟩ := (libraryItemRule_of_function hahead).1 ho
      obtain ⟨ks, hks, htext⟩ := functionRule_sound hahead hf
      have hword : .keyword .function ∈ ks := by
        cases htext with
        | mk => simp
      have huse : .keyword .use ∉ kinds ts := by
        unfold ImportsFirst at hfirst
        rw [hks, List.pairwise_append] at hfirst
        rw [hks, List.mem_append, not_or]
        exact ⟨functionText_noUse _ htext, fun hmem => hfirst.2.2 _ hword _ hmem rfl rfl⟩
      exact ⟨[], ts, Rule.many_of_false (functionAhead_ne hahead).1,
        functions_of_libraryItems h huse⟩

/-- In imports, one after the other, there is no word `function`, and one word `use` for each. -/
lemma importLines_words {ks : List TokenKind} {is : List Import} (h : Repeated ImportLine ks is) :
    .keyword .function ∉ ks ∧ ks.count (.keyword .use) = is.length := by
  induction h with
  | nil => simp
  | cons hline _ ih =>
    cases hline with
    | mk => simpa using ih

/-- The tokens of imports and then functions: the imports come first, and there is one word `use`
for each of them. -/
lemma importsFirst_of_rules {ts mid : List Token} {is : List Import} {fs : List Function}
    (his : importsRule ts = .ok is mid) (hfs : functionsRule mid = .ok fs []) :
    ImportsFirst ts ∧ (kinds ts).count (.keyword .use) = is.length := by
  obtain ⟨ks, hks, hlines⟩ := Rule.many_sound (fun _ _ _ _ hi => importRule_sound hi) his
  obtain ⟨ks', hks', htexts⟩ :=
    Rule.many_sound (fun _ _ _ hahead hf => functionRule_sound hahead hf) hfs
  obtain ⟨hword, hcount⟩ := importLines_words hlines
  have huse : .keyword .use ∉ ks' := repeated_noUse (functionText_noUse _) htexts
  rw [hks', kinds_nil, List.append_nil] at hks
  constructor
  · have hnever : ∀ k ∈ ks, ∀ k' : TokenKind, k = .keyword .function → k' ≠ .keyword .use :=
      fun k hk _ heq => absurd (heq ▸ hk) hword
    unfold ImportsFirst
    rw [hks, List.pairwise_append]
    refine ⟨?_, ?_, fun k hk k' _ => hnever k hk k'⟩
    · exact List.pairwise_of_forall_mem_list fun k hk k' _ => hnever k hk k'
    · exact List.pairwise_of_forall_mem_list fun _ _ _ hk' _ heq => huse (heq ▸ hk')
  · rw [hks, List.count_append, List.count_eq_zero.2 huse, hcount, List.length_map, Nat.add_zero]

/-- Tokens without an end of file end where one is seen. -/
lemma eq_nil_of_suffix {ts rest : List Token} (hend : .endOfFile ∉ kinds ts) (h : rest <:+ ts)
    (hpeek : peek rest = .endOfFile) : rest = [] := by
  cases rest with
  | nil => rfl
  | cons t rest =>
    refine absurd ?_ hend
    rw [← hpeek]
    exact List.mem_map_of_mem (h.subset List.mem_cons_self)

/-- **Libraries whose imports come first**, by the two loops of programs. -/
lemma libraryRule_iff {ts : List Token} (hend : .endOfFile ∉ kinds ts) {fs : List Function} :
    ((∃ rest, libraryRule ts = .ok fs rest) ∧ ImportsFirst ts) ↔
      ∃ is mid, importsRule ts = .ok is mid ∧ functionsRule mid = .ok fs [] := by
  constructor
  · rintro ⟨⟨rest, h⟩, hfirst⟩
    obtain rfl : rest = [] :=
      eq_nil_of_suffix hend (ruleOf_recedes 0 .library h) (Session.peek_of_libraryRule h)
    rw [libraryRule, Rule.bind_eq_ok] at h
    obtain ⟨items, mid, hitems, h⟩ := h
    cases h
    exact exists_imports_of_libraryItems hitems hfirst
  · rintro ⟨is, mid, his, hfs⟩
    refine ⟨⟨[], ?_⟩, (importsFirst_of_rules his hfs).1⟩
    rw [libraryRule, Rule.bind_eq_ok]
    refine ⟨_, [], libraryItems_of_imports his (libraryItems_of_functions hfs), ?_⟩
    simp [Rule.pure_apply]

/-! ## An empty `main` behind the tokens -/

/-- The tokens of an empty `main`. -/
def EmptyMain (ts : List Token) : Prop :=
  kinds ts = [.keyword .main, .punct .lparen, .punct .rparen, .punct .lbrace, .punct .rbrace]

variable {more : List Token}

/-- The empty `main` starts with its word. -/
lemma EmptyMain.peek_eq (h : EmptyMain more) : peek more = .keyword .main := by
  cases more with
  | nil => cases h
  | cons t ts => exact (List.cons.inj h).1

/-- No end of file comes in with the empty `main`. -/
lemma EmptyMain.endOfFile_notMem (h : EmptyMain more) {ts : List Token}
    (hend : .endOfFile ∉ kinds ts) : .endOfFile ∉ kinds (ts ++ more) := by
  have hmore : .endOfFile ∉ kinds more := by
    rw [h]
    decide
  rw [kinds, List.map_append, List.mem_append, not_or]
  exact ⟨hend, hmore⟩

/-- An empty `main` is read. -/
lemma EmptyMain.mainRule_eq (h : EmptyMain more) : ∃ f, mainRule more = .ok f [] := by
  have htext : MainText 0 (kinds more) ⟨"main", .void, [], ⟨[], {}⟩, {}⟩ := by
    rw [h]
    exact .mk (.mk .nil)
  rcases mainRule_complete 0 htext (List.append_nil _).symm trivial with
    ⟨f, rest, -, hrest, hf⟩ | ⟨hdeep, -⟩
  · obtain rfl : rest = [] := List.map_eq_nil_iff.1 hrest
    exact ⟨f, hf⟩
  · exact absurd hdeep (Nat.not_lt_zero _)

/-- A `main` that starts before the empty one ends before it. -/
lemma mainRule_append (hmain : peek more = .keyword .main) {t : Token} {ts rest' : List Token}
    {f : Function} (h : mainRule (t :: ts ++ more) = .ok f rest') :
    ∃ rest, rest' = rest ++ more := by
  have hstable : Stable more ruleOf :=
    ⟨fun _ _ _ _ _ _ h => h, fun _ x hx depth => ruleOf_keeps hmain x hx depth⟩
  have hrule : mainRule = mainPlan.run ruleOf := ruleOf_eq .main 0
  rw [hrule, mainPlan, Plan.run_bind, Rule.bind_eq_ok] at h
  obtain ⟨start, mid, hstart, h⟩ := h
  rw [Plan.word, Plan.run_read] at hstart
  obtain ⟨hcons, -⟩ := Rule.token_eq_ok.1 hstart
  obtain ⟨rfl, rfl⟩ := List.cons.inj hcons
  have hbehind : Plan.Keeps more ruleOf (do
      let _ ← Plan.mark .lparen "after 'main'"
      let _ ← Plan.mark .rparen "after '('"
      let body ← Plan.ask .block maxDepth
      pure (⟨"main", .void, [], body, t.span.merge body.span⟩ : Function)) := by
    refine (Plan.keeps_mark hmain _ _).bind fun _ => (Plan.keeps_mark hmain _ _).bind fun _ => ?_
    exact (hstable.ask .block rfl maxDepth).bind fun body => Plan.keeps_pure _
  obtain ⟨rest, hrest, -⟩ := hbehind.1 h
  exact ⟨rest, hrest⟩

/-- What a program is made of. -/
lemma programRule_eq_ok {file : String} {ts rest : List Token} {p : Program} :
    programRule file ts = .ok p rest ↔
      p.file = file ∧ ∃ mid left, importsRule ts = .ok p.imports mid ∧
        functionsRule mid = .ok p.functions left ∧ peek left = .keyword .main ∧
        mainRule left = .ok p.main rest ∧ peek rest = .endOfFile := by
  simp only [programRule, Rule.bind_eq_ok, Rule.next_bind]
  constructor
  · rintro ⟨is, mid, his, fs, left, hfs, h⟩
    split at h
    · next hmain =>
      simp only [Rule.bind_eq_ok, Rule.next_bind] at h
      obtain ⟨f, mid', hf, h⟩ := h
      split at h
      · next hend =>
        obtain ⟨rfl, rfl⟩ := Reply.ok.inj h
        exact ⟨rfl, mid, left, his, hfs, hmain, hf, hend⟩
      · cases h
    · cases h
  · rintro ⟨rfl, mid, left, his, hfs, hmain, hf, hend⟩
    refine ⟨p.imports, mid, his, p.functions, left, hfs, ?_⟩
    rw [if_pos hmain]
    simp only [Rule.bind_eq_ok, Rule.next_bind]
    refine ⟨p.main, rest, hf, ?_⟩
    rw [if_pos hend]
    rfl

/-- **Programs with an empty `main` at their end**: in front of it there are imports and functions,
and nothing else.

**Proof sketch.**  The loops over imports and functions read the same in front of `main`
(`ruleOf_keeps`).  If they leave tokens, either there is no `main` next, or it ends before the empty
one, and then the file does not end behind it. -/
lemma programRule_iff (hmore : EmptyMain more) {ts rest' : List Token}
    (hend : .endOfFile ∉ kinds ts) {file : String} {p : Program} :
    programRule file (ts ++ more) = .ok p rest' ↔
      rest' = [] ∧ p.file = file ∧ mainRule more = .ok p.main [] ∧
        ∃ mid, importsRule ts = .ok p.imports mid ∧ functionsRule mid = .ok p.functions [] := by
  have hmain := hmore.peek_eq
  have himports : importsRule.Keeps more := ruleOf_keeps hmain .imports rfl 0
  have hfunctions : functionsRule.Keeps more := ruleOf_keeps hmain .functions rfl 0
  constructor
  · intro h
    obtain ⟨hfile, _, _, his, hfs, -, hf, hpeek⟩ := programRule_eq_ok.1 h
    obtain rfl : rest' = [] :=
      eq_nil_of_suffix (hmore.endOfFile_notMem hend) (ruleOf_recedes 0 (.program file) h) hpeek
    obtain ⟨mid, rfl, hmid⟩ := himports.1 his
    obtain ⟨left, rfl, hleft⟩ := hfunctions.1 hfs
    cases left with
    | nil => exact ⟨rfl, hfile, hf, mid, hmid, hleft⟩
    | cons t left =>
      obtain ⟨rest, hrest⟩ := mainRule_append hmain hf
      obtain ⟨-, rfl⟩ := List.append_eq_nil_iff.1 hrest.symm
      cases hmain
  · rintro ⟨rfl, hfile, hf, mid, his, hfs⟩
    refine programRule_eq_ok.2 ⟨hfile, mid ++ more, more, ?_, ?_, hmain, hf, rfl⟩
    · exact himports.2 ⟨mid, rfl, his⟩
    · exact hfunctions.2 ⟨[], rfl, hfs⟩

/-- **Programs and libraries agree on functions.**  Let `ts` be tokens without an end of file.  They
are a library with the functions `fs`, all imports of which come first, exactly if with an empty
`main` behind them they are a program with the functions `fs`; and then there are as many words
`use` among them as the program has imports.

**Proof sketch.**  Both come down to the loop over imports and the loop over functions, one behind
the other up to the end of `ts` (`libraryRule_iff`, `programRule_iff`). -/
theorem library_iff_program {ts more : List Token} {last last' : Token}
    (hend : .endOfFile ∉ kinds ts) (hmore : EmptyMain more) (hlast : last.kind = .endOfFile)
    (hlast' : last'.kind = .endOfFile) (fs : List Function) :
    ((parseLibraryTokens (ts ++ [last]) = .ok fs ∧ ImportsFirst ts) ↔
      ∃ p, parseTokens (ts ++ more ++ [last']) = .ok p ∧ p.functions = fs) ∧
    ∀ p, parseTokens (ts ++ more ++ [last']) = .ok p →
      (kinds ts).count (.keyword .use) = p.imports.length := by
  have hends := hmore.endOfFile_notMem hend
  have hlibrary : parseLibraryTokens (ts ++ [last]) = .ok fs ↔
      ∃ rest, libraryRule ts = .ok fs rest := by
    rw [parseLibraryTokens, Session.library, Session.read_eq_ok, Session.ahead_ofTokens hlast hend]
  simp only [hlibrary, parseTokens_eq_ok hlast' hends, programRule_iff hmore hend,
    libraryRule_iff hend]
  constructor
  · constructor
    · rintro ⟨is, mid, his, hfs⟩
      obtain ⟨f, hf⟩ := hmore.mainRule_eq
      exact ⟨⟨is, fs, f, _⟩, ⟨[], rfl, rfl, hf, mid, his, hfs⟩, rfl⟩
    · rintro ⟨p, ⟨_, -, -, -, mid, his, hfs⟩, rfl⟩
      exact ⟨p.imports, mid, his, hfs⟩
  · rintro p ⟨_, -, -, -, mid, his, hfs⟩
    exact (importsFirst_of_rules his hfs).2

/-- The tokens of `use a; use b; int function f(int n) { return n; } void function g() { }`. -/
def twoImports : List Token :=
  [.keyword .use, .identifier "a", .punct .semi, .keyword .use, .identifier "b", .punct .semi,
   .keyword .int, .keyword .function, .identifier "f", .punct .lparen, .keyword .int,
   .identifier "n", .punct .rparen, .punct .lbrace, .keyword .return_, .identifier "n",
   .punct .semi, .punct .rbrace,
   .keyword .void, .keyword .function, .identifier "g", .punct .lparen, .punct .rparen,
   .punct .lbrace, .punct .rbrace].map fun k => ⟨k, "", {}, "a.idyl"⟩

/-- The tokens of `main() { }`. -/
def emptyMain : List Token :=
  [.keyword .main, .punct .lparen, .punct .rparen, .punct .lbrace, .punct .rbrace].map
    fun k => ⟨k, "", {}, "a.idyl"⟩

/-- The end of the file. -/
def fileEnd : Token := ⟨.endOfFile, "", {}, "a.idyl"⟩

/-- The two functions of this library are those of the program, which has two imports. -/
theorem library_iff_program_twoImports :
    ∃ fs p, parseLibraryTokens (twoImports ++ [fileEnd]) = .ok fs ∧ ImportsFirst twoImports ∧
      parseTokens (twoImports ++ emptyMain ++ [fileEnd]) = .ok p ∧ p.functions = fs ∧
      fs.map Function.name = ["f", "g"] ∧ p.imports.length = 2 := by
  obtain ⟨fs, hfs, hnames⟩ : ∃ fs, parseLibraryTokens (twoImports ++ [fileEnd]) = .ok fs ∧
      fs.map Function.name = ["f", "g"] := ⟨_, rfl, rfl⟩
  have hfirst : ImportsFirst twoImports := by
    unfold ImportsFirst
    decide
  have hend : .endOfFile ∉ kinds twoImports := by decide
  have hmore : EmptyMain emptyMain := rfl
  have hlast : fileEnd.kind = .endOfFile := rfl
  obtain ⟨hiff, hcount⟩ := library_iff_program hend hmore hlast hlast fs
  obtain ⟨p, hp, hfunctions⟩ := hiff.1 ⟨hfs, hfirst⟩
  exact ⟨fs, p, hfs, hfirst, hp, hfunctions, hnames, (hcount p hp).symm⟩

end Idyl.Grammar
