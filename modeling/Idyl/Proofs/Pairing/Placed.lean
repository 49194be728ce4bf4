import Mathlib
import Idyl.Compile
import Idyl.Proofs.Pairing.Checking
import Idyl.Proofs.Pairing.Reading
import Idyl.Proofs.Token.Places

/-!
# Faults lie in the text that was read

A run is put beside itself: everything stands for itself, and lies at a place of the text that was
read.  The tokens of a text do, and reading and checking carry this along, so whatever they find
fault with lies at a place of the text, in the file that it was read from.

## Main definitions

* `Idyl.Pairing.placed` — everything stands for itself, at a place of a text.
* `Idyl.CompileError.LiesIn` — errors that lie at a place of a file.

## Main results

* `Idyl.scan_error_liesIn`, `Idyl.parseTokens_error_liesIn`, `Idyl.parseLibraryTokens_error_liesIn`,
  `Idyl.diagnose_liesIn` — what every stage finds lies in the file.
-/

set_option autoImplicit false

namespace Idyl

variable {text file : String} {tokens : List Token}

/-! ## A run beside itself -/

/-- Everything stands for itself, lies at a place of a text, and carries the name of a file. -/
def Pairing.placed (text file : String) : Pairing where
  token t t' := t = t' ∧ t.file = file ∧ t.span.PlacedIn text
  span s s' := s = s' ∧ s.PlacedIn text
  file f f' := f = f' ∧ f = file
  kind_eq h := congrArg Token.kind h.1
  span_of_token h := ⟨congrArg Token.span h.1, h.2.2⟩
  file_of_token h := ⟨congrArg Token.file h.1, h.2.1⟩
  merge hs hu := by
    obtain ⟨rfl, hs⟩ := hs
    obtain ⟨rfl, hu⟩ := hu
    exact ⟨rfl, hs.merge hu⟩

/-- The tokens of a text stand for themselves at their places. -/
lemma scan_paired (h : scan text file = .ok tokens) :
    List.Forall₂ (Pairing.placed text file).token tokens tokens :=
  List.forall₂_same.2 fun t ht => ⟨rfl, scan_placed h t ht⟩

/-! ## Errors in a file -/

namespace CompileError

/-- An error that lies in a file: it carries the name of the file and a place in its text.  Lines
and columns are numbers of 32 bits, and exact as far as these go.  In a text of less than
`2 ^ 32 - 1` bytes all of them are. -/
structure LiesIn (f : SourceFile) (e : CompileError) : Prop where
  file_eq : e.file? = some f.name
  placed : ∃ s, e.span? = some s ∧ s.PlacedIn f.text ∧
    (lineFeedsBefore f.text s.start + 1 < 2 ^ 32 →
      s.line.toNat = lineFeedsBefore f.text s.start + 1) ∧
    (columnsBefore f.text s.start + 1 < 2 ^ 32 →
      s.column.toNat = columnsBefore f.text s.start + 1) ∧
    (f.text.utf8ByteSize < 2 ^ 32 - 1 →
      s.line.toNat = lineFeedsBefore f.text s.start + 1 ∧
        s.column.toNat = columnsBefore f.text s.start + 1)

/-- An error at a place of a text lies in its file. -/
lemma liesIn_toError {φ : Type} {e : Located φ} {f : SourceFile} (hfile : e.file = f.name)
    (hspan : e.span.PlacedIn f.text) (stage : Stage) (message : φ → String) :
    (e.toError stage message).LiesIn f where
  file_eq := congrArg some hfile
  placed := ⟨e.span, rfl, hspan, hspan.toNat_line, hspan.toNat_column, hspan.exact⟩

/-- A fault that stands for itself lies in the file. -/
lemma liesIn_of_paired {φ : Type} {e : Located φ} (h : e.Paired (Pairing.placed text file) e)
    (stage : Stage) (message : φ → String) : (e.toError stage message).LiesIn ⟨file, text⟩ :=
  liesIn_toError h.file.2 h.span.2 stage message

end CompileError

/-! ## Stages -/

/-- What the scanner finds lies in the file. -/
lemma scan_error_liesIn {e : LexError} (h : scan text file = .error e) :
    e.report.LiesIn ⟨file, text⟩ := by
  obtain ⟨hfile, hspan⟩ := scan_fault_placed h
  exact CompileError.liesIn_toError hfile hspan .lexing LexFault.message

/-- A syntax error that stands for itself is reported in the file. -/
lemma Pairing.Results.report_liesIn {α : Type} {Q : α → α → Prop} {x : Except SyntaxError α}
    {e : SyntaxError} (h : (Pairing.placed text file).Results Q x x) (he : x = .error e) :
    e.report.LiesIn ⟨file, text⟩ := by
  rw [he] at h
  cases h with
  | error hpaired => exact CompileError.liesIn_of_paired hpaired .parsing SyntaxFault.message

section Tokens

variable (hscan : scan text file = .ok tokens)
include hscan

/-- A syntax error of a program lies in the file. -/
lemma parseTokens_error_liesIn {e : SyntaxError} (h : parseTokens tokens = .error e) :
    e.report.LiesIn ⟨file, text⟩ :=
  (parseTokens_paired (scan_endsOnce hscan) (scan_paired hscan)).report_liesIn h

/-- A syntax error of a library lies in the file. -/
lemma parseLibraryTokens_error_liesIn {e : SyntaxError}
    (h : parseLibraryTokens tokens = .error e) : e.report.LiesIn ⟨file, text⟩ :=
  (parseLibraryTokens_paired (scan_endsOnce hscan) (scan_paired hscan)).report_liesIn h

/-- Checking a program that was read from a text finds errors that lie in its file. -/
lemma diagnose_liesIn {p : Program} (h : parseTokens tokens = .ok p) (libraries : NameSet) :
    ∀ e ∈ (diagnose p libraries).errors, e.LiesIn ⟨file, text⟩ := by
  have hpaired := parseTokens_paired (scan_endsOnce hscan) (scan_paired hscan)
  rw [h] at hpaired
  cases hpaired with
  | ok hp =>
    have hfaults := List.forall₂_same.1 (checkProgram_paired hp libraries)
    intro e he
    obtain ⟨f, hf, rfl⟩ := List.mem_map.1 he
    exact CompileError.liesIn_of_paired (hfaults f hf) .checking SemanticFault.message

end Tokens

end Idyl
