import Mathlib
import Idyl.Proofs.Bare
import Idyl.Proofs.Compile.Results
import Idyl.Proofs.Pairing.Checking
import Idyl.Proofs.Pairing.Reading
import Idyl.Proofs.Printing.Reparse

/-!
# Layout does not matter

Two texts with the same kinds of tokens may differ in blanks, comments and line breaks, in how
their strings and characters are written, and in the files they stand in.  None of it changes what
is made of them: reading and checking carry places along (`parseTokens_paired`,
`checkProgram_paired`), so pairing tokens by their kinds alone is enough.

## Main definitions

* `Idyl.Pairing.byKind` — tokens of one kind stand for each other, wherever they are.
* `Idyl.Program.unplaced` — a program without spans and file.
* `Idyl.SameVerdict` — texts are accepted with the same tree or refused with the same message.

## Main results

* `Idyl.layout_irrelevant` — the kinds of tokens decide about trees, messages and names.
-/

set_option autoImplicit false

namespace Idyl

/-! ## Trees without places -/

variable {M : Pairing}

mutual

/-- Expressions that differ only in places are the same without them. -/
lemma Expr.bare_eq_of_paired : ∀ (e : Expr) {e' : Expr}, e.Paired M e' → e.bare = e'.bare
  | .lit .., _, h => by
    cases h with
    | lit => rfl
  | .var .., _, h => by
    cases h with
    | var => rfl
  | .assign _ value _, _, h => by
    cases h with
    | assign hv => rw [bare, bare, bare_eq_of_paired value hv]
  | .binary _ left right _, _, h => by
    cases h with
    | binary hl hr => rw [bare, bare, bare_eq_of_paired left hl, bare_eq_of_paired right hr]
  | .unary _ operand _, _, h => by
    cases h with
    | unary he => rw [bare, bare, bare_eq_of_paired operand he]
  | .call callee args _, _, h => by
    cases h with
    | call hc hargs => rw [bare, bare, bare_eq_of_paired callee hc, bareAll_eq_of_paired args hargs]
  | .member object _ _, _, h => by
    cases h with
    | member ho => rw [bare, bare, bare_eq_of_paired object ho]

/-- Paired lists of expressions are the same without spans. -/
lemma Expr.bareAll_eq_of_paired : ∀ (es : List Expr) {es' : List Expr},
    List.Forall₂ (Expr.Paired M) es es' → bareAll es = bareAll es'
  | [], _, .nil => rfl
  | e :: es, _, .cons he hes => by
    rw [bareAll, bareAll, bare_eq_of_paired e he, bareAll_eq_of_paired es hes]

end

mutual

/-- Statements that differ only in places are the same without them. -/
lemma Stmt.bare_eq_of_paired : ∀ (s : Stmt) {s' : Stmt}, s.Paired M s' → s.bare = s'.bare
  | .declare .., _, h => by
    cases h with
    | declare hinit => rw [bare, bare, Expr.bare_eq_of_paired _ hinit]
  | .eval .., _, h => by
    cases h with
    | eval he => rw [bare, bare, Expr.bare_eq_of_paired _ he]
  | .block body _, _, h => by
    cases h with
    | block hbody => rw [bare, bare, bareAll_eq_of_paired body hbody]
  | .ifThen _ t _, _, h => by
    cases h with
    | ifThen hc ht => rw [bare, bare, Expr.bare_eq_of_paired _ hc, bare_eq_of_paired t ht]
  | .ifElse _ t e _, _, h => by
    cases h with
    | ifElse hc ht he =>
      rw [bare, bare, Expr.bare_eq_of_paired _ hc, bare_eq_of_paired t ht, bare_eq_of_paired e he]
  | .while_ _ b _, _, h => by
    cases h with
    | while_ hc hb => rw [bare, bare, Expr.bare_eq_of_paired _ hc, bare_eq_of_paired b hb]
  | .return_ .., _, h => by
    cases h with
    | return_ hvalue =>
      cases hvalue with
      | none => rfl
      | some he => rw [bare, bare, Option.map_some, Option.map_some, Expr.bare_eq_of_paired _ he]

/-- Paired lists of statements are the same without spans. -/
lemma Stmt.bareAll_eq_of_paired : ∀ (ss : List Stmt) {ss' : List Stmt},
    List.Forall₂ (Stmt.Paired M) ss ss' → bareAll ss = bareAll ss'
  | [], _, .nil => rfl
  | s :: ss, _, .cons hs hss => by
    rw [bareAll, bareAll, bare_eq_of_paired s hs, bareAll_eq_of_paired ss hss]

end

/-- Paired functions are the same without spans. -/
lemma Function.bare_eq_of_paired {f f' : Function} (h : f.Paired M f') : f.bare = f'.bare := by
  have hparams : f.params.map Param.bare = f'.params.map Param.bare :=
    map_eq_of_forall₂ h.params fun hp => by rw [Param.bare, Param.bare, hp.type_eq, hp.name_eq]
  have hbody : f.body.body.map Stmt.bare = f'.body.body.map Stmt.bare :=
    map_eq_of_forall₂ h.body.body fun hs => Stmt.bare_eq_of_paired _ hs
  rw [Function.bare, Function.bare, Block.bare, Block.bare, h.name_eq, h.returns_eq, hparams, hbody]

/-- A program with all spans and its file taken away. -/
def Program.unplaced (p : Program) : Program := { p.bare with file := "" }

/-- Paired programs are the same without spans and file. -/
lemma Program.unplaced_eq_of_paired {p p' : Program} (h : p.Paired M p') :
    p.unplaced = p'.unplaced := by
  have himports : p.imports.map Import.bare = p'.imports.map Import.bare :=
    map_eq_of_forall₂ h.imports fun hi => by rw [Import.bare, Import.bare, hi.name_eq]
  have hfunctions : p.functions.map Function.bare = p'.functions.map Function.bare :=
    map_eq_of_forall₂ h.functions Function.bare_eq_of_paired
  rw [unplaced, unplaced, Program.bare, Program.bare, himports, hfunctions,
    Function.bare_eq_of_paired h.main]

/-! ## Texts with the same kinds of tokens -/

/-- Tokens of one kind stand for each other, wherever they are. -/
def Pairing.byKind : Pairing where
  token t t' := t.kind = t'.kind
  span _ _ := True
  file _ _ := True
  kind_eq h := h
  span_of_token _ := trivial
  file_of_token _ := trivial
  merge _ _ := trivial

/-- Both texts are accepted, with trees that are the same to `view`, or both are refused as no text
of the language, with the same message. -/
inductive SameVerdict {α β : Type} (view : α → β) :
    Except CompileError α → Except CompileError α → Prop
  | accepted {a a' : α} (h : view a = view a') : SameVerdict view (.ok a) (.ok a')
  | refused {e e' : CompileError} (he : e.isSyntactic = true) (he' : e'.isSyntactic = true)
      (h : e.message = e'.message) : SameVerdict view (.error e) (.error e')

/-- Paired results are alike for a view that does not see the pairing. -/
lemma Pairing.Results.sameVerdict {α β : Type} {Q : α → α → Prop} {view : α → β}
    {x x' : Except SyntaxError α} (h : M.Results Q x x')
    (hview : ∀ a a', Q a a' → view a = view a') :
    SameVerdict view (x.mapError SyntaxError.report) (x'.mapError SyntaxError.report) := by
  cases h with
  | ok ha => exact .accepted (hview _ _ ha)
  | error he => exact .refused rfl rfl (congrArg SyntaxFault.message he.fault_eq)

/-- Paired programs have errors with the same messages. -/
lemma message_diagnose_eq {p p' : Program} (h : p.Paired M p') (libraries : NameSet) :
    (diagnose p libraries).errors.map CompileError.message =
      (diagnose p' libraries).errors.map CompileError.message := by
  rw [diagnose, diagnose, List.map_map, List.map_map]
  exact map_eq_of_forall₂ (checkProgram_paired h libraries) fun he =>
    congrArg SemanticFault.message he.fault_eq

/-- A library is read from the tokens of its text. -/
lemma parseLibrary_of_scan {text file : String} {tokens : List Token}
    (h : scan text file = .ok tokens) :
    parseLibrary text file = (parseLibraryTokens tokens).mapError SyntaxError.report := by
  rw [parseLibrary, Session.ofText, h]
  rfl

/-- **Layout does not matter.** If two texts, in files of any names, have tokens of the same kinds,
then reading them as programs gives trees that are equal up to spans and file, or syntax errors with
the same message; the same holds of reading them as libraries.  If both are programs, then whatever
libraries there are, checking finds errors with the same messages, one by one, and the programs are
known by the same names.

**Proof sketch.** The tokens of the two texts are paired by kind.  Reading and checking carry any
pairing along, and what is paired has the same tree without places, the same fault and the same
names. -/
theorem layout_irrelevant {text text' file file' : String} {ks : List TokenKind}
    (h : (scan text file).map kinds = .ok ks) (h' : (scan text' file').map kinds = .ok ks) :
    SameVerdict Program.unplaced (parseProgram text file) (parseProgram text' file') ∧
    SameVerdict (List.map Function.bare) (parseLibrary text file) (parseLibrary text' file') ∧
    ∀ p p', parseProgram text file = .ok p → parseProgram text' file' = .ok p' →
      ∀ libraries, p.info libraries = p'.info libraries ∧
        (diagnose p libraries).errors.map CompileError.message =
          (diagnose p' libraries).errors.map CompileError.message := by
  obtain ⟨tokens, hscan, hks⟩ := except_map_eq_ok.1 h
  obtain ⟨tokens', hscan', hks'⟩ := except_map_eq_ok.1 h'
  have hpaired : List.Forall₂ Pairing.byKind.token tokens tokens' := by
    have heq : List.Forall₂ Eq (kinds tokens) (kinds tokens') := by
      rw [List.forall₂_eq_eq_eq, hks, hks']
    rw [kinds, kinds, List.forall₂_map_left_iff, List.forall₂_map_right_iff] at heq
    exact heq
  have hends := scan_endsOnce hscan
  have hprogram := parseTokens_paired hends hpaired
  have hlibrary := parseLibraryTokens_paired hends hpaired
  rw [parseProgram_of_scan hscan, parseProgram_of_scan hscan', parseLibrary_of_scan hscan,
    parseLibrary_of_scan hscan']
  refine ⟨hprogram.sameVerdict fun _ _ => Program.unplaced_eq_of_paired,
    hlibrary.sameVerdict fun _ _ hfs => map_eq_of_forall₂ hfs Function.bare_eq_of_paired, ?_⟩
  intro p p' hp hp' libraries
  rw [except_mapError_eq_ok] at hp hp'
  rw [hp, hp'] at hprogram
  cases hprogram with
  | ok hpaired => exact ⟨info_eq_of_paired hpaired libraries, message_diagnose_eq hpaired libraries⟩

/-- A program with a comment, broken lines and an escape. -/
def spreadText : String :=
  "use m; // a library\nmain ( )\n\x7b\n  string s = \"\\e!\";\r\n\ty = m.f(s) + 'a';\n\x7d\n"

/-- The same program in one line, with the character itself for its escape. -/
def denseText : String := "use m;main()\x7bstring s=\"\x1b!\";y=m.f(s)+'a';\x7d"

/-- A program in two layouts has two errors in both, with the same messages. -/
theorem layout_irrelevant_sample :
    ∃ ks p p', (scan spreadText "a.idyl").map kinds = .ok ks ∧
      (scan denseText "b.idyl").map kinds = .ok ks ∧
      parseProgram spreadText "a.idyl" = .ok p ∧ parseProgram denseText "b.idyl" = .ok p' ∧
      (diagnose p (.ofList ["m"])).size = 2 ∧
      (diagnose p (.ofList ["m"])).errors.map CompileError.message =
        (diagnose p' (.ofList ["m"])).errors.map CompileError.message := by
  have hsame : (scan spreadText "a.idyl").map kinds = (scan denseText "b.idyl").map kinds := by
    decide +kernel
  have hsize : (parseProgram spreadText "a.idyl").map
      (fun p => (diagnose p (.ofList ["m"])).size) = .ok 2 := by decide +kernel
  obtain ⟨p, hp, hsize⟩ := except_map_eq_ok.1 hsize
  obtain ⟨p', hp'⟩ := exists_ok_of_isOk
    (by decide +kernel : (parseProgram denseText "b.idyl").isOk = true)
  obtain ⟨tokens, hscan⟩ := exists_ok_of_isOk
    (by decide +kernel : (scan spreadText "a.idyl").isOk = true)
  have h : (scan spreadText "a.idyl").map kinds = .ok (kinds tokens) := by rw [hscan]; rfl
  have h' := hsame.symm.trans h
  exact ⟨kinds tokens, p, p', h, h', hp, hp', hsize,
    ((layout_irrelevant h h').2.2 p p' hp hp' _).2⟩

end Idyl
