import Mathlib
import Idyl.Proofs.Grammar.Spans
import Idyl.Proofs.LineIndex
import Idyl.Proofs.Pairing.Placed

/-!
# Tokens without an end of file

A session over tokens that lack their end-of-file token puts one at the end of the last token.
Reading gives the same phrase then, or the same fault, as with the end-of-file token in its place.

The place of a fault is another matter.  A fault at one of the tokens is placed as it should be.  A
fault at the end is placed at the byte behind the last token, but on the line and column at which
this token starts, or on line and column zero if there is no token.  Since no token of a text is
empty, these are never the line and column of that byte.

## Main definitions

* `Idyl.Pairing.among` — tokens stand for themselves, and are among some tokens.
* `Idyl.Session.UpToEnd` — what is read from tokens without and with their end of file.

## Main results

* `Idyl.parseTokens_upToEnd`, `Idyl.parseLibraryTokens_upToEnd` — programs and libraries.
* `Idyl.endToken_misplaced` — line and column of the added token.
* `Idyl.parse_without_end` — what is read, and which faults are placed as they should be.
-/

set_option autoImplicit false

namespace Idyl

/-! ## Reading up to the end -/

/-- Every token stands for itself, and is among some tokens. -/
def Pairing.among (tokens : List Token) : Pairing where
  token t t' := t = t' ∧ t ∈ tokens
  span s s' := s = s'
  file f f' := f = f'
  kind_eq h := congrArg Token.kind h.1
  span_of_token h := congrArg Token.span h.1
  file_of_token h := congrArg Token.file h.1
  merge hs hu := congrArg₂ Span.merge hs hu

namespace Session

variable {α : Type} {body : List Token} {last : Token}

/-- What is read from tokens without their end of file `last`, and with it: the same phrase, the
same error at one of the tokens, or the same fault at the two ends. -/
inductive UpToEnd (body : List Token) (last : Token) :
    Except SyntaxError α → Except SyntaxError α → Prop
  | ok (a : α) : UpToEnd body last (.ok a) (.ok a)
  | token {t : Token} (ht : t ∈ body) (f : SyntaxFault) :
      UpToEnd body last (.error ⟨f, t.file, t.span⟩) (.error ⟨f, t.file, t.span⟩)
  | fileEnd (f : SyntaxFault) :
      UpToEnd body last (.error ⟨f, (endToken body).file, (endToken body).span⟩)
        (.error ⟨f, last.file, last.span⟩)

namespace UpToEnd

variable {x x' : Except SyntaxError α}

/-- The same phrase or the same fault is found. -/
lemma mapError_fault (h : UpToEnd body last x x') :
    x.mapError Located.fault = x'.mapError Located.fault := by
  cases h <;> rfl

/-- Without the end of file, errors lie at tokens or at the end that is added. -/
lemma span_cases (h : UpToEnd body last x x') {e : SyntaxError} (he : x = .error e) :
    (∃ t ∈ body, e.span = t.span) ∨ e.span = (endToken body).span := by
  cases h with
  | ok a => cases he
  | token ht f =>
    obtain rfl := Except.error.inj he
    exact .inl ⟨_, ht, rfl⟩
  | fileEnd f =>
    obtain rfl := Except.error.inj he
    exact .inr rfl

end UpToEnd

/-- A rule finds fault with a token that it was given, or with their end. -/
lemma mem_of_fail {Q : α → α → Prop} {r : Rule α} (hr : r.Carries (.among body) Q)
    {m : Misread} {rest : List Token} (h : r body = .fail m rest) : ∀ t ∈ m.token, t ∈ body := by
  have hbody : List.Forall₂ (Pairing.among body).token body body :=
    List.forall₂_same.2 fun t ht => ⟨rfl, ht⟩
  have hreply := hr hbody
  rw [h] at hreply
  rintro t ht
  cases hreply with
  | fail hrel =>
    obtain rfl : _ = some t := ht
    cases hrel with
    | some hmem => exact hmem.2

/-- An end of file is put where it is missing. -/
lemma complete_of_not_mem (hbody : .endOfFile ∉ kinds body) :
    complete body = body ++ [endToken body] := by
  unfold complete
  cases hlast : body.getLast? with
  | none =>
    rw [List.getLast?_eq_none_iff] at hlast
    subst hlast
    rfl
  | some t =>
    have hkind : t.kind ≠ .endOfFile := fun hk =>
      hbody (List.mem_map.2 ⟨t, List.mem_of_getLast? hlast, hk⟩)
    exact if_neg hkind

/-- Tokens without an end get the one that would be added. -/
lemma ofTokens_of_not_mem (hbody : .endOfFile ∉ kinds body) :
    ofTokens body = ofTokens (body ++ [endToken body]) := by
  have hend : complete (body ++ [endToken body]) = body ++ [endToken body] :=
    tokens_ofTokens rfl
  rw [ofTokens, ofTokens, hend, complete_of_not_mem hbody]

/-- **Reading up to the end**, by rules that agree on the tokens. -/
lemma read_upToEnd (hlast : last.kind = .endOfFile) (hbody : .endOfFile ∉ kinds body)
    {Q : α → α → Prop} {r r' : Rule α} (hr : r.Carries (.among body) Q) (hsame : r body = r' body) :
    UpToEnd body last ((ofTokens body).read r).1 ((ofTokens (body ++ [last])).read r').1 := by
  rw [ofTokens_of_not_mem hbody, result_read, result_read, ahead_ofTokens rfl hbody,
    ahead_ofTokens hlast hbody, ← hsame]
  cases hreply : r body with
  | ok a rest => exact .ok a
  | fail m rest =>
    obtain ⟨f, _ | t⟩ := m
    · dsimp only [locate, Option.getD_none]
      rw [fileEnd_ofTokens rfl hbody, fileEnd_ofTokens hlast hbody]
      exact .fileEnd f
    · exact .token (mem_of_fail hr hreply t rfl) f

end Session

section Tokens

variable {body : List Token} {last : Token} (hlast : last.kind = .endOfFile)
  (hbody : .endOfFile ∉ kinds body)

include hlast hbody

/-- **Programs.** Without any tokens there is no program, whatever the file. -/
lemma parseTokens_upToEnd :
    Session.UpToEnd body last (parseTokens body) (parseTokens (body ++ [last])) := by
  refine Session.read_upToEnd hlast hbody (programRule_paired rfl) ?_
  have hfile : ∀ t, t.kind = .endOfFile →
      (Session.ofTokens (body ++ [t])).file = Session.fileOf (body ++ [t]) := by
    intro t ht
    rw [Session.file, Session.tokens_ofTokens ht]
  rw [Session.ofTokens_of_not_mem hbody, hfile _ rfl, hfile _ hlast]
  cases body with
  | nil => rfl
  | cons t body => rfl

/-- **Libraries.** -/
lemma parseLibraryTokens_upToEnd :
    Session.UpToEnd body last (parseLibraryTokens body) (parseLibraryTokens (body ++ [last])) :=
  Session.read_upToEnd hlast hbody libraryRule_carries rfl

end Tokens

/-! ## The place of the added end -/

/-- No token of a text is empty, apart from the end of the file. -/
lemma scan_nonempty {text file : String} {tokens : List Token} (h : scan text file = .ok tokens) :
    ∃ body last, tokens = body ++ [last] ∧ last.kind = .endOfFile ∧ .endOfFile ∉ kinds body ∧
      ∀ t ∈ body, t.span.start < t.span.stop := by
  obtain ⟨body, last, j, rfl, hlast, hbody, htiles⟩ :=
    (Scanner.reads_ofText text file).steps_tiles h
  refine ⟨body, last, rfl, hlast, hbody, fun t ht => ?_⟩
  exact (htiles.pieces _ (List.mem_map_of_mem ht)).1

/-- **The end that is added behind tokens is misplaced.** Behind tokens that are not empty, its line
and column are never those of its byte. -/
lemma endToken_misplaced {text : String} {body : List Token}
    (hsize : text.utf8ByteSize < 2 ^ 32) (hplaced : ∀ t ∈ body, t.span.PlacedIn text)
    (hpos : ∀ t ∈ body, t.span.start < t.span.stop) :
    (LineIndex.ofText text).location? text (Session.endToken body).span.start ≠
      some ((Session.endToken body).span.line, (Session.endToken body).span.column) := by
  unfold Session.endToken
  cases hlast : body.getLast? with
  | none =>
    -- lines are counted from one, and the added token is on line zero
    have hzero : lineFeedsBefore text 0 = 0 := by
      unfold lineFeedsBefore
      cases text.toList <;> rfl
    intro h
    rw [LineIndex.location?_ofText, hzero] at h
    have hline : UInt32.ofNat (0 + 1) = 0 := (Prod.mk.inj (Option.some.inj h)).1
    exact absurd hline (by decide)
  | some t =>
    have ht := List.mem_of_getLast? hlast
    have hstart := LineIndex.location?_of_placedIn (hplaced t ht)
    show (LineIndex.ofText text).location? text t.span.stop ≠ some (t.span.line, t.span.column)
    rw [← hstart]
    exact (LineIndex.location?_ne hsize (hplaced t ht).start_edge (hplaced t ht).stop_edge
      (hpos t ht)).symm

/-- **Reading without an end of file.** Take the tokens of a text without their end of file.  A
program or a library is read from them exactly if it is read from all tokens, and then it is the
same; otherwise the same fault is found.  A fault at one of the tokens lies at a place of the text,
with the line and column that the index of the text gives for its byte.  In a text of less than
`2 ^ 32` bytes no other fault has the line and column of its byte.

**Proof sketch.** The rules never see the end of the file, so they reply the same
(`parseTokens_upToEnd`, `parseLibraryTokens_upToEnd`).  Tokens lie at their places (`scan_placed`);
the end that is added does not (`endToken_misplaced`). -/
theorem parse_without_end {text file : String} {tokens : List Token}
    (hscan : scan text file = .ok tokens) :
    (parseTokens tokens.dropLast).mapError Located.fault =
      (parseTokens tokens).mapError Located.fault ∧
    (parseLibraryTokens tokens.dropLast).mapError Located.fault =
      (parseLibraryTokens tokens).mapError Located.fault ∧
    ∀ e, parseTokens tokens.dropLast = .error e ∨ parseLibraryTokens tokens.dropLast = .error e →
      ((∃ t ∈ tokens.dropLast, e.span = t.span) → e.span.PlacedIn text ∧
        (LineIndex.ofText text).location? text e.span.start = some (e.span.line, e.span.column)) ∧
      (text.utf8ByteSize < 2 ^ 32 →
        (LineIndex.ofText text).location? text e.span.start = some (e.span.line, e.span.column) →
        ∃ t ∈ tokens.dropLast, e.span = t.span) := by
  obtain ⟨body, last, rfl, hlast, hbody, hpos⟩ := scan_nonempty hscan
  have hplaced : ∀ t ∈ body, t.span.PlacedIn text := fun t ht =>
    (scan_placed hscan t (List.mem_append_left _ ht)).2
  have hprogram := parseTokens_upToEnd hlast hbody
  have hlibrary := parseLibraryTokens_upToEnd hlast hbody
  rw [List.dropLast_concat]
  refine ⟨hprogram.mapError_fault, hlibrary.mapError_fault,
    fun e he => ⟨?_, fun hsize hlocated => ?_⟩⟩
  · rintro ⟨t, ht, hspan⟩
    rw [hspan]
    exact ⟨hplaced t ht, LineIndex.location?_of_placedIn (hplaced t ht)⟩
  · have hcases := he.elim hprogram.span_cases hlibrary.span_cases
    refine hcases.resolve_right fun hend => ?_
    rw [hend] at hlocated
    exact endToken_misplaced hsize hplaced hpos hlocated

/-- A reading whose error is known by its span. -/
lemma exists_error_of_span {α : Type} {x : Except SyntaxError α} {s : Span}
    (h : (x.map fun _ => ()).mapError Located.span = .error s) :
    ∃ e, x = .error e ∧ e.span = s := by
  cases x with
  | ok a => cases h
  | error e => exact ⟨e, rfl, Except.error.inj h⟩

/-- A program with a string that runs over two lines, and a semicolon missing behind it. -/
def unendedText : String := "main() \x7b \"a\nb\" x"

/-- The semicolon is missed at a token of the second line, and this fault is placed as it should
be. -/
theorem parse_without_end_twoLines :
    ∃ tokens e, scan unendedText "a.idyl" = .ok tokens ∧
      parseTokens tokens.dropLast = .error e ∧ (∃ t ∈ tokens.dropLast, e.span = t.span) ∧
      (LineIndex.ofText unendedText).location? unendedText e.span.start =
        some (e.span.line, e.span.column) := by
  have hrun : (scan unendedText "a.idyl").map (fun tokens =>
      (((parseTokens tokens.dropLast).map fun _ => ()).mapError Located.span,
        tokens.dropLast.any (·.span = ⟨15, 16, 2, 4⟩))) = .ok (.error ⟨15, 16, 2, 4⟩, true) := by
    decide +kernel
  obtain ⟨tokens, hscan, hrun⟩ := except_map_eq_ok.1 hrun
  obtain ⟨hparse, hmem⟩ := Prod.mk.inj hrun
  obtain ⟨e, he, hspan⟩ := exists_error_of_span hparse
  have htoken : ∃ t ∈ tokens.dropLast, e.span = t.span := by
    obtain ⟨t, ht, hsame⟩ := List.any_eq_true.1 hmem
    exact ⟨t, ht, by rw [hspan, of_decide_eq_true hsame]⟩
  obtain ⟨-, -, hplaces⟩ := parse_without_end hscan
  exact ⟨tokens, e, hscan, he, htoken, ((hplaces e (.inl he)).1 htoken).2⟩

/-- Where tokens end too early, the fault lies at the byte behind the last of them, but on the
column at which it starts. -/
theorem added_end_misplaced :
    ∃ tokens e, scan "main" "a.idyl" = .ok tokens ∧ parseTokens tokens.dropLast = .error e ∧
      e.span = ⟨4, 4, 1, 1⟩ ∧
      (LineIndex.ofText "main").location? "main" e.span.start ≠
        some (e.span.line, e.span.column) := by
  have hrun : (scan "main" "a.idyl").map (fun tokens =>
      ((parseTokens tokens.dropLast).map fun _ => ()).mapError Located.span) =
        .ok (.error ⟨4, 4, 1, 1⟩) := by
    decide +kernel
  obtain ⟨tokens, hscan, hrun⟩ := except_map_eq_ok.1 hrun
  obtain ⟨e, he, hspan⟩ := exists_error_of_span hrun
  refine ⟨tokens, e, hscan, he, hspan, ?_⟩
  rw [hspan]
  decide +kernel

end Idyl
