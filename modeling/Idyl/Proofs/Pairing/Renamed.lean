import Mathlib
import Idyl.Proofs.Pairing.Reading

/-!
# One text under two names

The name of a file goes into tokens and errors and has no influence on anything else.  A text that
is read under two names gives the same tokens, apart from the name, and as a library the same
functions, or the same fault at the same place.

## Main definitions

* `Idyl.Pairing.renamed` — tokens stand for each other that differ only in the name of the file.

## Main results

* `Idyl.scan_renamed` — the tokens of a text under two names.
* `Idyl.parseLibraryTokens_renamed` — the functions of a library under two names.
-/

set_option autoImplicit false

namespace Idyl

/-- Tokens stand for each other if they are of one kind and at one place, in whatever files. -/
def Pairing.renamed : Pairing where
  token t t' := t.kind = t'.kind ∧ t.span = t'.span
  span s s' := s = s'
  file _ _ := True
  kind_eq h := h.1
  span_of_token h := h.2
  file_of_token _ := trivial
  merge hs hu := by rw [hs, hu]

open Pairing (renamed)

/-- Less may be asked of results. -/
lemma Pairing.Results.imp {α φ : Type} {M : Pairing} {Q Q' : α → α → Prop}
    {x x' : Except (Located φ) α} (h : M.Results Q x x') (hQ : ∀ {a a' : α}, Q a a' → Q' a a') :
    M.Results Q' x x' := by
  cases h with
  | ok ha => exact .ok (hQ ha)
  | error he => exact .error he

/-! ## Tokens -/

namespace Scanner

/-- A step over a text under two names. -/
lemma next_renamed (s : Scanner) (file : String) :
    renamed.Results renamed.token s.next.1 ({ s with file := file } : Scanner).next.1 ∧
      ({ s with file := file } : Scanner).next.2 = { s.next.2 with file := file } := by
  have hblank : ({ s with file := file } : Scanner).skipBlanks =
      { s.skipBlanks with file := file } := rfl
  unfold next
  rw [hblank]
  obtain ⟨_, pos, rest⟩ := s.skipBlanks
  cases rest with
  | nil => exact ⟨.ok ⟨rfl, rfl⟩, rfl⟩
  | cons c cs =>
    dsimp only
    cases (readToken c cs).outcome with
    | ok kind => exact ⟨.ok ⟨rfl, rfl⟩, rfl⟩
    | error fault => exact ⟨.error ⟨rfl, trivial, rfl⟩, rfl⟩

/-- All steps over a text under two names.

**Proof sketch.** Induction along the steps; each leads to the same place in the text, whatever the
name. -/
lemma steps_renamed (s : Scanner) (file : String) :
    List.Forall₂ (renamed.Results renamed.token) s.steps
      ({ s with file := file } : Scanner).steps := by
  have hend (s : Scanner) : ({ s with file := file } : Scanner).atEnd = s.atEnd := rfl
  fun_induction steps s with
  | case1 s h =>
    rw [steps.eq_def { s with file := file }, hend, if_pos h]
    exact .cons (s.next_renamed file).1 .nil
  | case2 s h ih =>
    rw [steps.eq_def { s with file := file }, hend, if_neg h, (s.next_renamed file).2]
    exact .cons (s.next_renamed file).1 ih

end Scanner

/-- The steps of two scanners, put together. -/
lemma mapM_renamed {rs rs' : List (Except LexError Token)}
    (h : List.Forall₂ (renamed.Results renamed.token) rs rs') :
    renamed.Results (List.Forall₂ renamed.token) (rs.mapM id) (rs'.mapM id) := by
  induction h with
  | nil => exact .ok .nil
  | @cons r r' rs rs' hr _ ih =>
    rw [List.mapM_cons, List.mapM_cons]
    cases hr with
    | error he => exact .error he
    | ok ht =>
      generalize rs.mapM id = x, rs'.mapM id = x' at ih
      cases ih with
      | error he => exact .error he
      | ok hts => exact .ok (.cons ht hts)

/-- **The tokens of a text under two names** differ only in the name, or the same piece is no
token. -/
lemma scan_renamed (text file file' : String) :
    renamed.Results (List.Forall₂ renamed.token) (scan text file)
      (scan text file') :=
  mapM_renamed (Scanner.steps_renamed (Scanner.ofText text file) file')

/-! ## Trees -/

/-- Lists of pairs that are equal. -/
lemma eq_of_forall₂ {α : Type} {R : α → α → Prop} {xs xs' : List α} (h : List.Forall₂ R xs xs')
    (hR : ∀ {a a' : α}, R a a' → a = a') : xs = xs' := by
  have heq : List.Forall₂ Eq xs xs' := h.imp fun _ _ => hR
  rwa [List.forall₂_eq_eq_eq] at heq

/-- Another file name leaves spans alone. -/
lemma Pairing.eq_of_renamed {s s' : Span} (h : renamed.span s s') : s = s' := h

open Pairing (eq_of_renamed)

mutual

/-- Expressions that differ only in places, which are the same, do not differ. -/
lemma Expr.eq_of_paired : ∀ (e : Expr) {e' : Expr}, e.Paired .renamed e' → e = e'
  | .lit .., _, h => by
    cases h with
    | lit hs => rw [eq_of_renamed hs]
  | .var .., _, h => by
    cases h with
    | var hs => rw [eq_of_renamed hs]
  | .assign _ value _, _, h => by
    cases h with
    | assign hv hs => rw [eq_of_paired value hv, eq_of_renamed hs]
  | .binary _ left right _, _, h => by
    cases h with
    | binary hl hr hs => rw [eq_of_paired left hl, eq_of_paired right hr, eq_of_renamed hs]
  | .unary _ operand _, _, h => by
    cases h with
    | unary he hs => rw [eq_of_paired operand he, eq_of_renamed hs]
  | .call callee args _, _, h => by
    cases h with
    | call hc hargs hs => rw [eq_of_paired callee hc, eqAll_of_paired args hargs, eq_of_renamed hs]
  | .member object _ _, _, h => by
    cases h with
    | member ho hs => rw [eq_of_paired object ho, eq_of_renamed hs]

/-- It leaves lists of expressions alone. -/
lemma Expr.eqAll_of_paired : ∀ (es : List Expr) {es' : List Expr},
    List.Forall₂ (Expr.Paired .renamed) es es' → es = es'
  | [], _, .nil => rfl
  | e :: es, _, .cons he hes => by rw [eq_of_paired e he, eqAll_of_paired es hes]

end

mutual

/-- Statements that differ only in places, which are the same, do not differ. -/
lemma Stmt.eq_of_paired : ∀ (s : Stmt) {s' : Stmt}, s.Paired .renamed s' → s = s'
  | .declare .., _, h => by
    cases h with
    | declare hinit hs => rw [Expr.eq_of_paired _ hinit, eq_of_renamed hs]
  | .eval .., _, h => by
    cases h with
    | eval he hs => rw [Expr.eq_of_paired _ he, eq_of_renamed hs]
  | .block body _, _, h => by
    cases h with
    | block hbody hs => rw [eqAll_of_paired body hbody, eq_of_renamed hs]
  | .ifThen _ t _, _, h => by
    cases h with
    | ifThen hc ht hs => rw [Expr.eq_of_paired _ hc, eq_of_paired t ht, eq_of_renamed hs]
  | .ifElse _ t e _, _, h => by
    cases h with
    | ifElse hc ht he hs =>
      rw [Expr.eq_of_paired _ hc, eq_of_paired t ht, eq_of_paired e he, eq_of_renamed hs]
  | .while_ _ b _, _, h => by
    cases h with
    | while_ hc hb hs => rw [Expr.eq_of_paired _ hc, eq_of_paired b hb, eq_of_renamed hs]
  | .return_ .., _, h => by
    cases h with
    | return_ hvalue hs =>
      cases hvalue with
      | none => rw [eq_of_renamed hs]
      | some he => rw [Expr.eq_of_paired _ he, eq_of_renamed hs]

/-- It leaves lists of statements alone. -/
lemma Stmt.eqAll_of_paired : ∀ (ss : List Stmt) {ss' : List Stmt},
    List.Forall₂ (Stmt.Paired .renamed) ss ss' → ss = ss'
  | [], _, .nil => rfl
  | s :: ss, _, .cons hs hss => by rw [eq_of_paired s hs, eqAll_of_paired ss hss]

end

/-- It leaves parameters alone. -/
lemma Param.eq_of_paired {p p' : Param} (h : p.Paired .renamed p') : p = p' := by
  cases p
  cases p'
  exact Param.mk.injEq .. ▸ ⟨h.type_eq, h.name_eq, h.span⟩

/-- It leaves blocks alone. -/
lemma Block.eq_of_paired {b b' : Block} (h : b.Paired .renamed b') : b = b' := by
  cases b
  cases b'
  exact Block.mk.injEq .. ▸ ⟨Stmt.eqAll_of_paired _ h.body, h.span⟩

/-- **Functions of one text under two names** are the same: a function tells the places that it was
read from and not the file. -/
lemma Function.eq_of_paired {f f' : Function} (h : f.Paired .renamed f') : f = f' := by
  have hparams : f.params = f'.params := eq_of_forall₂ h.params Param.eq_of_paired
  cases f
  cases f'
  exact Function.mk.injEq .. ▸
    ⟨h.name_eq, h.returns_eq, hparams, Block.eq_of_paired h.body, h.span⟩

/-- **The functions of a library under two names** are the same, or there is the same fault at the
same place. -/
lemma parseLibraryTokens_renamed {tokens tokens' : List Token} (hends : EndsOnce tokens)
    (h : List.Forall₂ renamed.token tokens tokens') :
    renamed.Results Eq (parseLibraryTokens tokens) (parseLibraryTokens tokens') :=
  (parseLibraryTokens_paired hends h).imp fun hfunctions =>
    eq_of_forall₂ hfunctions Function.eq_of_paired

end Idyl
