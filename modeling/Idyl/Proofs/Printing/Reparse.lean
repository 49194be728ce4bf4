import Idyl.Proofs.Grammar.Sentence
import Idyl.Proofs.Printing.Derives

/-!
# Printing and reading a program gives it back

The text that a program is printed as scans to the tokens that the program is printed by
(`scan_render`), since all of them can be written, and these spell the program
(`sentenceWithin_tokens`).  So reading the text gives the program back, unless its phrases are
nested too deeply.

## Main results

* `Idyl.Program.writable_tokens` — a printed program is made of tokens that can be written.
* `Idyl.parseProgram_print` — reading undoes printing.
-/

set_option autoImplicit false

namespace Idyl

open Grammar

/-! ## Tokens that can be written -/

/-- All the tokens can be written. -/
def AllWritable (ks : List TokenKind) : Prop := ∀ k ∈ ks, k.Writable

/-- Without tokens there is nothing that could not be written. -/
@[simp] lemma allWritable_nil : AllWritable [] := by simp [AllWritable]

/-- Tokens can be written if the first one and the others can. -/
@[simp] lemma allWritable_cons {k : TokenKind} {ks : List TokenKind} :
    AllWritable (k :: ks) ↔ k.Writable ∧ AllWritable ks := List.forall_mem_cons

/-- Tokens can be written if both parts can. -/
@[simp] lemma allWritable_append {ks ks' : List TokenKind} :
    AllWritable (ks ++ ks') ↔ AllWritable ks ∧ AllWritable ks' := List.forall_mem_append

/-- Words can be written. -/
@[simp] lemma writable_keyword (word : Keyword) : (TokenKind.keyword word).Writable := trivial

/-- Marks can be written. -/
@[simp] lemma writable_punct (mark : Punct) : (TokenKind.punct mark).Writable := trivial

/-- A name can be written if it is an identifier. -/
@[simp] lemma writable_identifier {name : String} :
    (TokenKind.identifier name).Writable ↔ isIdentifier name = true := Iff.rfl

/-- Parentheses can be written. -/
@[simp] lemma allWritable_bracket {needed : Bool} {ks : List TokenKind} :
    AllWritable (bracket needed ks) ↔ AllWritable ks := by
  cases needed <;> simp [bracket]

/-- Types can be written. -/
@[simp] lemma Ty.writable_token (t : Ty) : t.token.Writable := by
  cases t <;> trivial

/-- Binary operators can be written. -/
@[simp] lemma BinaryOp.writable_token (op : BinaryOp) : op.token.Writable := by
  cases op <;> trivial

/-- Unary operators can be written. -/
@[simp] lemma UnaryOp.writable_token (op : UnaryOp) : op.token.Writable := by
  cases op <;> trivial

/-- Literals can be written. -/
lemma Literal.writable_token (value : Literal) : value.token.Writable := by
  cases value with
  | int n =>
    rw [token, TokenKind.Writable, String.toList_ofList]
    exact isDigits_toDigits _
  | float x => exact x.isDecimal_exactText
  | bool b => cases b <;> trivial
  | string value => trivial
  | char value => trivial

mutual

/-- **The tokens of a printed expression** can be written. -/
lemma Expr.writable_tokens : ∀ e : Expr, e.Printable → AllWritable e.tokens
  | .lit value _, _ => by simpa [Expr.tokens] using value.writable_token
  | .var name _, h => by simpa [Expr.tokens, Expr.Printable] using h
  | .assign name value _, h => by
    simpa [Expr.tokens] using ⟨h.1, Expr.writable_tokens value h.2⟩
  | .binary op left right _, h => by
    simpa [Expr.tokens] using ⟨Expr.writable_tokens left h.1, Expr.writable_tokens right h.2⟩
  | .unary op operand _, h => by
    simpa [Expr.tokens] using Expr.writable_tokens operand h.2
  | .call callee args _, h => by
    have hargs := Expr.writable_commaTokens args h.2
    simpa [Expr.tokens] using ⟨Expr.writable_tokens callee h.1,
      fun k hk => hargs k (List.mem_of_mem_tail hk)⟩
  | .member object name _, h => by
    simpa [Expr.tokens] using ⟨Expr.writable_tokens object h.1, h.2⟩

/-- The tokens of printed arguments can be written. -/
lemma Expr.writable_commaTokens : ∀ es : List Expr, Expr.AllPrintable es →
    AllWritable (Expr.commaTokens es)
  | [], _ => allWritable_nil
  | e :: es, h => by
    simpa [Expr.commaTokens] using
      ⟨Expr.writable_tokens e h.1, Expr.writable_commaTokens es h.2⟩

end

/-- What is printed for a block can be written if the statements can. -/
lemma writable_asItem {s : Stmt} (h : ItemPrintable s s.Printable)
    (hs : s.Printable → AllWritable s.tokens) : AllWritable (asItem s s.tokens) := by
  cases s with
  | declare type name init span =>
    obtain ⟨-, hname, hinit⟩ := h
    simpa [asItem, Stmt.tokens] using ⟨hname, init.writable_tokens hinit⟩
  | eval e span =>
    cases e with
    | var name => simpa [asItem, ItemPrintable, Stmt.Printable, Expr.Printable] using h
    | lit | assign | binary | unary | call | member => exact hs h
  | block | ifThen | ifElse | while_ | return_ => exact hs h

mutual

/-- **The tokens of a printed statement** can be written. -/
lemma Stmt.writable_tokens : ∀ s : Stmt, s.Printable → AllWritable s.tokens
  | .declare .., h => h.elim
  | .eval e _, h => by simpa [Stmt.tokens] using e.writable_tokens h
  | .block body _, h => by simpa [Stmt.tokens] using Stmt.writable_itemTokens body h
  | .ifThen condition thenBranch _, h => by
    simpa [Stmt.tokens] using
      ⟨condition.writable_tokens h.1, Stmt.writable_tokens thenBranch h.2⟩
  | .ifElse condition thenBranch elseBranch _, h => by
    simpa [Stmt.tokens] using
      ⟨condition.writable_tokens h.1, Stmt.writable_tokens thenBranch h.2.1,
        Stmt.writable_tokens elseBranch h.2.2.2⟩
  | .while_ condition body _, h => by
    simpa [Stmt.tokens] using ⟨condition.writable_tokens h.1, Stmt.writable_tokens body h.2⟩
  | .return_ none _, _ => by simp [Stmt.tokens]
  | .return_ (some e) _, h => by simpa [Stmt.tokens] using e.writable_tokens h

/-- The tokens of printed statements can be written. -/
lemma Stmt.writable_itemTokens : ∀ ss : List Stmt, Stmt.ItemsPrintable ss →
    AllWritable (Stmt.itemTokens ss)
  | [], _ => allWritable_nil
  | s :: ss, h => by
    simpa [Stmt.itemTokens] using
      ⟨writable_asItem h.1 (Stmt.writable_tokens s), Stmt.writable_itemTokens ss h.2⟩

end

/-- Phrases can be written if each of them can. -/
lemma allWritable_flatMap {α : Type} {tokens : α → List TokenKind} {as : List α}
    (h : ∀ a ∈ as, AllWritable (tokens a)) : AllWritable (as.flatMap tokens) := by
  intro k hk
  obtain ⟨a, ha, hka⟩ := List.mem_flatMap.1 hk
  exact h a ha k hka

/-- A printed program is made of tokens that can be written. -/
lemma Program.writable_tokens {p : Program} (h : p.Printable) : AllWritable p.tokens := by
  have himports : AllWritable (p.imports.flatMap Import.tokens) :=
    allWritable_flatMap fun i hi => by simpa [Import.tokens] using h.imports i hi
  have hfunctions : AllWritable (p.functions.flatMap Function.tokens) := by
    refine allWritable_flatMap fun f hf => ?_
    obtain ⟨hname, -, -, hparams, hbody⟩ := h.functions f hf
    have hps : AllWritable (f.params.flatMap Param.tokens) :=
      allWritable_flatMap fun q hq => by simpa [Param.tokens] using hparams q hq
    simpa [Function.tokens, Block.tokens] using
      ⟨hname, hps, Stmt.writable_itemTokens f.body.body hbody⟩
  have hmain := Stmt.writable_itemTokens p.main.body.body h.main.body
  simpa [Program.tokens, Function.mainTokens, Block.tokens] using ⟨himports, hfunctions, hmain⟩

/-! ## Reading what was printed -/

/-- Reading a text is reading its tokens. -/
lemma parseProgram_of_scan {text file : String} {tokens : List Token}
    (h : scan text file = .ok tokens) :
    parseProgram text file = (parseTokens tokens).mapError SyntaxError.report := by
  rw [parseProgram, Session.ofText, h]
  rfl

/-- Reading the printed program gives it back, up to spans, as a program of the file read. -/
def ReadsBack (p : Program) (file : String) : Prop :=
  ∃ q, parseProgram p.print file = .ok q ∧ q.bare = { p.bare with file := file }

/-- Reading a text stops at phrases that are nested too deeply. -/
def StopsTooDeep (text file : String) : Prop :=
  ∃ (what : Nesting) (f : String) (s : Span), parseProgram text file =
    .error (.inText .parsing (what.name ++ " nested too deeply") f s)

/-- A program that takes so many levels is read back or found to be nested too deeply, and the
latter can only be if there are not so many levels.

**Proof sketch.** The text scans to the printed tokens and the end of the file, and these are a
sentence, so that the rule for programs gives the program or stops (`programRule_complete`). -/
lemma readsBack_or_stops {p : Program} (h : p.Printable) {depth : Nat}
    (hdepth : ∀ f ∈ p.allFunctions, f.levels ≤ depth) (file : String) :
    ReadsBack p file ∨ maxDepth < depth ∧ StopsTooDeep p.print file := by
  have hwritable := Program.writable_tokens h
  obtain ⟨tokens, hscan, hkinds, hfiles⟩ := scan_render hwritable file
  obtain ⟨body, ends, rfl, hbody, hends⟩ := List.map_eq_append_iff.1 hkinds
  obtain ⟨last, rfl, hlast⟩ := List.map_eq_singleton_iff.1 hends
  have hbody : kinds body = p.tokens := hbody
  have hnone : .endOfFile ∉ kinds body := fun hmem => hwritable .endOfFile (hbody ▸ hmem)
  have hfile : Session.fileOf (body ++ [last]) = file := by
    cases body with
    | nil => exact hfiles last (by simp)
    | cons t body => exact hfiles t (by simp)
  have hgives : (programRule file body).Gives Program.bare { p.bare with file := file } []
      (maxDepth < depth) := by
    refine programRule_complete ?_
    rw [hbody]
    exact sentenceWithin_tokens h hdepth
  have hparse := parseProgram_of_scan hscan
  rw [parseTokens_append hlast hnone, hfile] at hparse
  rcases hgives with ⟨q, rest, hq, -, hr⟩ | ⟨hdeep, what, t, rest, hr⟩
  · rw [hr] at hparse
    exact .inl ⟨q, hparse, hq⟩
  · rw [hr] at hparse
    exact .inr ⟨hdeep, what, _, _, hparse⟩

/-- **Reading undoes printing.** Reading a printed program gives the program back, up to spans, or
stops at phrases that are nested too deeply; and it does not stop if no path into a function has
more than sixty phrases.

**Proof sketch.** Any program takes some number of levels, and one of the given height takes at
most twice as many as its height, which the limit on nesting allows. -/
theorem parseProgram_print {p : Program} (h : p.Printable) (file : String) :
    (ReadsBack p file ∨ StopsTooDeep p.print file) ∧
      ((∀ f ∈ p.allFunctions, f.height ≤ 60) → ReadsBack p file) := by
  constructor
  · have hne : p.allFunctions.map Function.levels ≠ [] := by simp [Program.allFunctions]
    have hdepth : ∀ f ∈ p.allFunctions, f.levels ≤ (p.allFunctions.map Function.levels).max hne :=
      fun f hf => List.le_max_of_mem (List.mem_map_of_mem hf)
    exact (readsBack_or_stops h hdepth file).imp_right And.right
  · intro hheight
    have hdepth : ∀ f ∈ p.allFunctions, f.levels ≤ maxDepth := by
      intro f hf
      calc f.levels ≤ 2 * f.height := f.levels_le
        _ ≤ 2 * 60 := Nat.mul_le_mul_left 2 (hheight f hf)
        _ ≤ maxDepth := by decide
    rcases readsBack_or_stops h hdepth file with hback | ⟨hdeep, -⟩
    · exact hback
    · exact absurd hdeep (Nat.lt_irrefl maxDepth)

/-- A program in which parentheses, escapes and an `else` behind a block are needed. -/
def sample : Program where
  imports := [⟨"geometry", {}⟩]
  functions :=
    [{ name := "scale", returns := .float, params := [⟨.float, "x", {}⟩], span := {}
       body := ⟨[.return_ (some (.binary .mul (.lit (.float ⟨0x4004000000000000⟩) {})
         (.binary .sub (.var "x" {}) (.binary .sub (.var "x" {}) (.lit (.int 1) {}) {}) {}) {}))
         {}], {}⟩ }]
  main :=
    { name := "main", returns := .void, params := [], span := {}
      body := ⟨[.declare .string "s" (.lit (.string "a\"b\\") {}) {}, .eval (.var "s" {}) {},
        .ifElse (.unary .not (.binary .eq (.var "s" {}) (.lit (.char '\'') {}) {}) {})
          (.block [.ifThen (.lit (.bool true) {}) (.eval (.var "s" {}) {}) {}] {})
          (.eval (.member (.call (.var "scale" {}) [.assign "s" (.var "s" {}) {}] {}) "f" {}) {})
          {}], {}⟩ }
  file := "a.idyl"

example : render sample.main.mainTokens =
    "main ( ) \x7b string s = \"a\\\"b\\\\\" ; ( s ) ; if ( not ( s == '\\'' ) ) \x7b " ++
      "if ( true ) s ; \x7d else scale ( s = s ) . f ; \x7d" := by
  decide +kernel

/-- The sample can be printed, is not too high, and is read back. -/
theorem readsBack_sample :
    sample.Printable ∧ (∀ f ∈ sample.allFunctions, f.height ≤ 60) ∧ ReadsBack sample "b.idyl" := by
  have hscale : isIdentifier "scale" = true := by decide
  have hs : isIdentifier "s" = true := by decide
  have hx : isIdentifier "x" = true := by decide
  have hone : 0 ≤ (1 : Int64).toInt := by decide
  have hdecimal : (Literal.float ⟨0x4004000000000000⟩).Printable :=
    ⟨"2.5", ⟨['2'], ['5'], rfl, rfl, rfl⟩, by decide +kernel⟩
  have hprintable : sample.Printable := by
    refine ⟨by decide, ?_, rfl, rfl, rfl, ?_⟩
    · intro f hf
      obtain rfl := List.mem_singleton.1 hf
      exact ⟨hscale, by decide, by decide, by decide, ⟨hdecimal, hx, hx, hone⟩, trivial⟩
    · exact ⟨⟨by decide, hs, trivial⟩, hs, ⟨⟨rfl, hs, trivial⟩, ⟨⟨trivial, hs⟩, trivial⟩, rfl,
        ⟨hscale, ⟨hs, hs⟩, trivial⟩, by decide⟩, trivial⟩
  have hheight : ∀ f ∈ sample.allFunctions, f.height ≤ 60 := by decide
  exact ⟨hprintable, hheight, (parseProgram_print hprintable "b.idyl").2 hheight⟩

end Idyl
