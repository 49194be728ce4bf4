import Mathlib
import Idyl.Proofs.Token.Lexeme

/-!
# Steps of a scanner

What a scanner can do in one step: it walks over blanks and comments, and then over the text of
a token, or over a piece of text that is none, or it stands at the end.  `Idyl.Scanner.Step` says
this once; what holds of every step, and of the tokens of every text, is read off from it.

## Main definitions

* `Idyl.Trivia` — text that is skipped.
* `Idyl.Scanner.Step` — what a step can do.

## Main results

* `Idyl.Scanner.next_step` — every step is such a step.
* `Idyl.scan_kinds` — the tokens of a text can all be written, and the end of the file follows.
* `Idyl.scan_render_inverse` — writing and reading undo each other.
-/

set_option autoImplicit false

namespace Idyl

/-! ## Blanks and comments -/

/-- Text that is skipped in front of `rest`: blanks, and comments up to a line feed or the end of
the text. -/
inductive Trivia (rest : List Char) : List Char → Prop
  | nil : Trivia rest []
  | blank {c : Char} {gap : List Char} (hc : c ∈ [' ', '\t', '\r', '\n'])
      (tail : Trivia rest gap) : Trivia rest (c :: gap)
  | comment {body gap : List Char} (hbody : '\n' ∉ body)
      (hend : ∀ c ∈ (gap ++ rest).head?, c = '\n') (tail : Trivia rest gap) :
      Trivia rest ('/' :: '/' :: (body ++ gap))

/-- What is left of a comment, and what is skipped behind it. -/
def InComment (rest skipped : List Char) : Prop :=
  ∃ body gap, skipped = body ++ gap ∧ '\n' ∉ body ∧ (∀ c ∈ (gap ++ rest).head?, c = '\n') ∧
    Trivia rest gap

/-- What is skipped before a token is blanks and comments.

**Proof sketch.** Induction along the text.  Inside a comment the text skipped so far is a comment
without its end; a line feed ends it and is the first blank behind it. -/
lemma blankLength_spec (inComment : Bool) (cs : List Char) :
    if inComment then
      InComment (cs.drop (blankLength inComment cs)) (cs.take (blankLength inComment cs))
    else Trivia (cs.drop (blankLength inComment cs)) (cs.take (blankLength inComment cs)) := by
  fun_induction blankLength inComment cs with
  | case1 inComment =>
    split
    · exact ⟨[], [], rfl, by simp, by simp, .nil⟩
    · exact .nil
  | case2 c cs ih =>
    simp only [if_true, List.take_succ_cons, List.drop_succ_cons]
    by_cases hc : c = '\n'
    · subst hc
      exact ⟨[], _, rfl, by simp, by simp, .blank (by simp) (by simpa using ih)⟩
    · simp only [hc, ne_eq, not_false_eq_true, decide_true, if_true] at ih ⊢
      obtain ⟨body, gap, hskipped, hbody, hend, hgap⟩ := ih
      refine ⟨c :: body, gap, by rw [hskipped, List.cons_append], ?_, hend, hgap⟩
      simpa [Ne.symm hc] using hbody
  | case3 inComment c cs hin hblank ih =>
    simp only [hin, Bool.false_eq_true, if_false, List.take_succ_cons, List.drop_succ_cons] at ih ⊢
    refine .blank ?_ ih
    simpa [isBlank, or_assoc] using hblank
  | case4 inComment c hin hblank d ds hslash ih =>
    obtain ⟨rfl, rfl⟩ : c = '/' ∧ d = '/' := by simpa using hslash
    simp only [hin, if_true, List.take_succ_cons, List.drop_succ_cons] at ih ⊢
    obtain ⟨body, gap, hskipped, hbody, hend, hgap⟩ := ih
    rw [hskipped]
    exact .comment hbody hend hgap
  | case5 inComment c hin | case6 inComment c hin =>
    simp only [hin]
    exact .nil

/-- What is skipped before a token is blanks and comments. -/
lemma trivia_blankLength (cs : List Char) :
    Trivia (cs.drop (blankLength false cs)) (cs.take (blankLength false cs)) := by
  simpa using blankLength_spec false cs

/-! ## One step -/

namespace Position

/-- Further on, and then still further on. -/
lemma after_append (p : Position) (cs ds : List Char) :
    p.after (cs ++ ds) = (p.after cs).after ds := List.foldl_append

end Position

namespace Scanner

/-- The end-of-file token of a file that ends at `p`. -/
def endAt (file : String) (p : Position) : Token := ⟨.endOfFile, "", p.spanTo p, file⟩

/-- What a step of a scanner can do: it skips a gap and stands at the end of the text, or it
skips a gap and takes the text of a token or of a fault. -/
inductive Step (s : Scanner) : Except LexError Token → Scanner → Prop
  | finish (hend : s.atEnd = true) (hgap : Trivia [] s.rest) :
      Step s (.ok (endAt s.file (s.pos.after s.rest))) ⟨s.file, s.pos.after s.rest, []⟩
  | token {gap text rest : List Char} {kind : TokenKind} (hend : s.atEnd = false)
      (hrest : s.rest = gap ++ (text ++ rest)) (hgap : Trivia (text ++ rest) gap)
      (htext : Lexeme kind text) :
      Step s
        (.ok ⟨kind, lexeme kind text, (s.pos.after gap).spanTo ((s.pos.after gap).after text),
          s.file⟩)
        ⟨s.file, (s.pos.after gap).after text, rest⟩
  | fault {gap text rest : List Char} {fault : LexFault} (hend : s.atEnd = false)
      (hrest : s.rest = gap ++ (text ++ rest)) (hgap : Trivia (text ++ rest) gap)
      (htext : text ≠ []) :
      Step s (.error ⟨fault, s.file, (s.pos.after gap).spanTo ((s.pos.after gap).after text)⟩)
        ⟨s.file, (s.pos.after gap).after text, rest⟩

/-- **Every step is such a step.** -/
lemma next_step (s : Scanner) : s.Step s.next.1 s.next.2 := by
  have hgap := trivia_blankLength s.rest
  have hsplit := List.take_append_drop (blankLength false s.rest) s.rest
  set gap := s.rest.take (blankLength false s.rest) with hg
  have hskip : s.skipBlanks = ⟨s.file, s.pos.after gap, s.rest.drop (blankLength false s.rest)⟩ :=
    rfl
  cases hrest : s.rest.drop (blankLength false s.rest) with
  | nil =>
    rw [hrest] at hgap hsplit hskip
    rw [List.append_nil] at hsplit
    have hend : s.atEnd = true := by rw [atEnd, hskip]; rfl
    have hnext : s.next =
        (.ok (endAt s.file (s.pos.after gap)), ⟨s.file, s.pos.after gap, []⟩) := by
      rw [next, hskip]
      rfl
    rw [hnext, hsplit]
    exact .finish hend (hsplit ▸ hgap)
  | cons c cs =>
    rw [hrest] at hgap hsplit hskip
    have hend : s.atEnd = false := by rw [atEnd, hskip]; rfl
    have htake : c :: cs =
        (c :: cs.take (readToken c cs).length) ++ cs.drop (readToken c cs).length := by
      rw [List.cons_append, List.take_append_drop]
    rw [htake] at hgap hsplit
    rw [next, hskip]
    dsimp only
    cases hread : (readToken c cs).outcome with
    | ok kind => exact .token hend hsplit.symm hgap (readToken_lexeme hread)
    | error fault => exact .fault hend hsplit.symm hgap (List.cons_ne_nil _ _)

/-- At the end of the text a step gives the end-of-file token and stays there. -/
lemma next_of_atEnd {s : Scanner} (h : s.atEnd = true) :
    s.next = (.ok (endAt s.file (s.pos.after s.rest)), ⟨s.file, s.pos.after s.rest, []⟩) ∧
      Trivia [] s.rest := by
  have hstep := s.next_step
  rw [← Prod.mk.eta (p := s.next)]
  generalize s.next.1 = r, s.next.2 = s' at hstep ⊢
  cases hstep with
  | finish _ hgap => exact ⟨rfl, hgap⟩
  | token hend | fault hend => simp [h] at hend

/-- Before the end of the text a token that is found has a text. -/
lemma lexeme_of_next {s : Scanner} {t : Token} (h : s.atEnd = false) (ht : s.next.1 = .ok t) :
    ∃ text, Lexeme t.kind text := by
  have hstep := s.next_step
  rw [ht] at hstep
  generalize s.next.2 = s' at hstep
  cases hstep with
  | finish hend => simp [h] at hend
  | token _ _ _ htext => exact ⟨_, htext⟩

/-! ## All steps -/

/-- Results in a row are all tokens if the first one is and the others are. -/
lemma mapM_cons_eq_ok {r : Except LexError Token} {rs : List (Except LexError Token)}
    {tokens : List Token} :
    (r :: rs).mapM id = .ok tokens ↔
      ∃ t ts, r = .ok t ∧ rs.mapM id = .ok ts ∧ tokens = t :: ts := by
  rw [List.mapM_cons]
  cases r with
  | error e => simp [bind, Except.bind]
  | ok t =>
    cases rs.mapM id with
    | error e => simp [bind, Except.bind]
    | ok ts => simp [bind, Except.bind, pure, Except.pure, eq_comm]

/-- A fault among results in a row is the first of them, or the others' after a token. -/
lemma mapM_cons_eq_error {r : Except LexError Token} {rs : List (Except LexError Token)}
    {e : LexError} :
    (r :: rs).mapM id = .error e ↔ r = .error e ∨ ∃ t, r = .ok t ∧ rs.mapM id = .error e := by
  rw [List.mapM_cons]
  cases r with
  | error e' => simp [bind, Except.bind]
  | ok t => cases rs.mapM id <;> simp [bind, Except.bind, pure, Except.pure]

/-- If all steps over a text find tokens, the last of them is the end of the file and the others
can be written.

**Proof sketch.** Induction along the steps.  Before the end of the text a step finds a token that
has a text, and at the end it finds the end of the file. -/
lemma steps_eq_ok {s : Scanner} {tokens : List Token} (h : s.steps.mapM id = .ok tokens) :
    ∃ body last, tokens = body ++ [last] ∧ last.kind = .endOfFile ∧
      ∀ t ∈ body, t.kind.Writable := by
  fun_induction steps s generalizing tokens with
  | case1 s hend =>
    obtain ⟨hnext, -⟩ := next_of_atEnd hend
    rw [hnext] at h
    obtain ⟨t, ts, ht, hts, rfl⟩ := mapM_cons_eq_ok.1 h
    obtain rfl : [] = ts := Except.ok.inj hts
    obtain rfl : _ = t := Except.ok.inj ht
    exact ⟨[], _, rfl, rfl, by simp⟩
  | case2 s hend ih =>
    obtain ⟨t, ts, ht, hts, rfl⟩ := mapM_cons_eq_ok.1 h
    obtain ⟨body, last, rfl, hlast, hbody⟩ := ih hts
    obtain ⟨text, htext⟩ := lexeme_of_next (Bool.eq_false_iff.2 hend) ht
    refine ⟨t :: body, last, rfl, hlast, fun u hu => ?_⟩
    rcases List.mem_cons.1 hu with rfl | hu
    · exact htext.writable
    · exact hbody u hu

end Scanner

/-- **The tokens of a text** can all be written, and the end of the file follows them. -/
lemma scan_kinds {text file : String} {tokens : List Token} (h : scan text file = .ok tokens) :
    ∃ body last, tokens = body ++ [last] ∧ last.kind = .endOfFile ∧
      ∀ t ∈ body, t.kind.Writable :=
  Scanner.steps_eq_ok h

/-- **Reading undoes writing, and writing keeps what was read.** Kinds of tokens that can be
written are read back from their text.  The tokens of any text can be written, and reading what
was written gives tokens of the same kinds.

**Proof sketch.** The first part is `scan_render`.  By `scan_kinds` the tokens of a text fall under
the first part. -/
theorem scan_render_inverse :
    (∀ ks : List TokenKind, (∀ k ∈ ks, k.Writable) → ∀ file : String,
      ∃ tokens, scan (render ks) file = .ok tokens ∧ kinds tokens = ks ++ [.endOfFile]) ∧
    ∀ (text file : String) (tokens : List Token), scan text file = .ok tokens →
      ∃ ks, kinds tokens = ks ++ [.endOfFile] ∧ (∀ k ∈ ks, k.Writable) ∧
        ∀ file' : String, ∃ tokens', scan (render ks) file' = .ok tokens' ∧
          kinds tokens' = kinds tokens := by
  have hwritten : ∀ ks : List TokenKind, (∀ k ∈ ks, k.Writable) → ∀ file : String,
      ∃ tokens, scan (render ks) file = .ok tokens ∧ kinds tokens = ks ++ [.endOfFile] := by
    intro ks hks file
    obtain ⟨tokens, hscan, hkinds, -⟩ := scan_render hks file
    exact ⟨tokens, hscan, hkinds⟩
  refine ⟨hwritten, fun text file tokens h => ?_⟩
  obtain ⟨body, last, rfl, hlast, hbody⟩ := scan_kinds h
  have hkinds : kinds (body ++ [last]) = kinds body ++ [.endOfFile] := by simp [kinds, hlast]
  have hks : ∀ k ∈ kinds body, k.Writable := by
    intro k hk
    obtain ⟨t, ht, rfl⟩ := List.mem_map.1 hk
    exact hbody t ht
  refine ⟨kinds body, hkinds, hks, fun file' => ?_⟩
  rw [hkinds]
  exact hwritten _ hks file'

/-- Kinds whose texts run into each other or into a comment, if no blank is put between them. -/
def crowdedKinds : List TokenKind :=
  [.identifier "use_", .integer "007", .punct .dot, .float "1.50", .punct .slash, .punct .slash,
   .keyword .use, .string "\\q\"é\n", .char '\'', .char '\n', .punct .lt, .punct .eq]

/-- A text with a comment, an unknown escape, and characters written with a backslash. -/
def escapedText : String := "x=\"\\q\\e\"// 'c\r\n'\\t'/'\r'"

/-- Crowded kinds are read back, and so are the kinds of a text with escapes. -/
theorem scan_render_inverse_sample :
    ((∀ k ∈ crowdedKinds, k.Writable) ∧
      ∃ tokens, scan (render crowdedKinds) "a.idyl" = .ok tokens ∧
        kinds tokens = crowdedKinds ++ [.endOfFile]) ∧
    ∃ tokens, scan escapedText "a.idyl" = .ok tokens ∧
      ∃ ks, kinds tokens = ks ++ [.endOfFile] ∧ (∀ k ∈ ks, k.Writable) ∧
        ∀ file' : String, ∃ tokens', scan (render ks) file' = .ok tokens' ∧
          kinds tokens' = kinds tokens := by
  have hcrowded : ∀ k ∈ crowdedKinds, k.Writable := by
    have hfloat : IsDecimal "1.50".toList := ⟨['1'], ['5', '0'], by decide⟩
    simp only [crowdedKinds, List.forall_mem_cons, List.not_mem_nil, false_imp_iff, implies_true,
      TokenKind.Writable, hfloat, and_true]
    decide
  have hescaped : (scan escapedText "a.idyl").isOk = true := by decide +kernel
  cases hscan : scan escapedText "a.idyl" with
  | error e => simp [hscan, Except.isOk, Except.toBool] at hescaped
  | ok tokens =>
    exact ⟨⟨hcrowded, scan_render_inverse.1 crowdedKinds hcrowded "a.idyl"⟩, tokens, rfl,
      scan_render_inverse.2 escapedText "a.idyl" tokens hscan⟩

end Idyl
