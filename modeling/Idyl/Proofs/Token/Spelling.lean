import Mathlib
import Idyl.Proofs.Grammar.Reading
import Idyl.Token.Scan

/-!
# Spelling tokens

A list of kinds of tokens is written down by spelling each of them and putting a blank between
one and the next.  Reading such a text gives the kinds back, and then the end of the file.

A spelt token is followed by a blank or by nothing, and neither can continue a token.  So each
token is read on its own, whatever comes later.

## Main definitions

* `Idyl.TokenKind.spelling` — how a token is written.
* `Idyl.TokenKind.Writable` — whether a token can be written at all.
* `Idyl.render` — a text for a list of kinds.

## Main results

* `Idyl.readToken_spelling` — a token that is written is read.
* `Idyl.scan_render` — reading undoes writing.
-/

set_option autoImplicit false

namespace Idyl

/-! ## Writing -/

/-- A string between quotes; a quote or a backslash in it is written with a backslash. -/
def stringBody (value : List Char) : List Char :=
  value.flatMap fun c => if c = '"' || c = '\\' then ['\\', c] else [c]

/-- A character between quotes; a quote, a backslash or a line feed is written with a
backslash. -/
def charBody (c : Char) : List Char :=
  if c = '\n' then ['\\', 'n'] else if c = '\'' || c = '\\' then ['\\', c] else [c]

/-- How a token is written.  The end of a file is not written. -/
def TokenKind.spelling : TokenKind → String
  | keyword word => word.text
  | identifier name => name
  | integer text | float text => text
  | string value => String.ofList ('"' :: (stringBody value.toList ++ ['"']))
  | char value => String.ofList ('\'' :: (charBody value ++ ['\'']))
  | punct mark => mark.text
  | endOfFile => ""

/-- A letter or an underscore, and then letters, digits and underscores. -/
def isWord : List Char → Bool
  | [] => false
  | c :: cs => isWordStart c && cs.all isWordRest

/-- Whether a word can name something. -/
def isIdentifier (name : String) : Bool :=
  isWord name.toList && (Keyword.ofText? name).isNone

/-- One digit or more. -/
def isDigits (cs : List Char) : Bool := !cs.isEmpty && cs.all Char.isDigit

/-- Digits, a point, and digits again. -/
def IsDecimal (cs : List Char) : Prop :=
  ∃ whole fraction, cs = whole ++ '.' :: fraction ∧ isDigits whole = true ∧ isDigits fraction = true

/-- A token that can be written: names are words without a meaning of their own, and numbers are
written by digits. -/
def TokenKind.Writable : TokenKind → Prop
  | identifier name => isIdentifier name = true
  | integer text => isDigits text.toList = true
  | float text => IsDecimal text.toList
  | endOfFile => False
  | _ => True

/-- A text for a list of kinds: one blank stands between two tokens. -/
def render (ks : List TokenKind) : String := " ".intercalate (ks.map TokenKind.spelling)

/-- Spellings are written with a blank between them. -/
lemma toList_render_cons (k : TokenKind) (ks : List TokenKind) :
    (render (k :: ks)).toList =
      k.spelling.toList ++ if ks = [] then [] else ' ' :: (render ks).toList := by
  cases ks with
  | nil => simp [render]
  | cons k' ks => simp [render, String.intercalate_cons_cons]

/-! ## Reading one token -/

/-- Text that cannot continue a token: nothing, or a blank and more. -/
def Apart (rest : List Char) : Prop := ∀ c ∈ rest.head?, c = ' '

/-- What a blank or the end follows ends there. -/
lemma Apart.takeWhile_append {rest : List Char} (h : Apart rest) {test : Char → Bool}
    (hblank : test ' ' = false) {cs : List Char} (hcs : cs.all test = true) :
    (cs ++ rest).takeWhile test = cs := by
  have hrest : rest.takeWhile test = [] := by
    cases rest with
    | nil => rfl
    | cons c rest =>
      obtain rfl := h c rfl
      simp [hblank]
  rw [List.takeWhile_append_of_pos (by simpa using hcs), hrest, List.append_nil]

variable {rest : List Char}

/-- A word that stands apart is a keyword if all of it is one, and else a name. -/
lemma readWord_spelling (hrest : Apart rest) {word : String} {c : Char} {cs : List Char}
    (hword : word.toList = c :: cs) (h : isWord word.toList = true) :
    readToken c (cs ++ rest) =
      ⟨.ok (((Keyword.ofText? word).map TokenKind.keyword).getD (.identifier word)),
        cs.length⟩ := by
  rw [hword] at h
  obtain ⟨hc, hcs⟩ : isWordStart c = true ∧ cs.all isWordRest = true := by
    simpa only [isWord, Bool.and_eq_true] using h
  have hofList : String.ofList (c :: cs) = word := by rw [← hword, String.ofList_toList]
  rw [readToken, if_pos hc, readWord]
  simp only [hrest.takeWhile_append (by decide : isWordRest ' ' = false) hcs, hofList]
  cases Keyword.ofText? word <;> rfl

/-- A digit starts no word. -/
lemma isWordStart_of_isDigit {c : Char} (h : c.isDigit = true) : isWordStart c = false := by
  have hne : c ≠ '_' := by
    rintro rfl
    exact absurd h (by decide)
  simp only [Char.isDigit, isWordStart, Char.isAlpha, Char.isUpper, Char.isLower] at *
  grind

/-- Digits, and at least one of them. -/
lemma isDigits_iff {cs : List Char} :
    isDigits cs = true ↔ cs ≠ [] ∧ cs.all Char.isDigit = true := by
  simp [isDigits]

/-- A first digit, and then any number of them. -/
lemma isDigits_cons {c : Char} {cs : List Char} :
    isDigits (c :: cs) = true ↔ c.isDigit = true ∧ cs.all Char.isDigit = true := by
  simp [isDigits]

/-- Nothing that stands apart is the fraction of a number. -/
lemma readFraction_apart (hrest : Apart rest) : readFraction rest = [] := by
  cases rest with
  | nil => rfl
  | cons c rest =>
    obtain rfl := hrest c rfl
    rfl

/-- A spelled integer is read back. -/
lemma readInteger_spelling (hrest : Apart rest) {text : String} {c : Char} {cs : List Char}
    (htext : text.toList = c :: cs) (h : isDigits text.toList = true) :
    readToken c (cs ++ rest) = ⟨.ok (.integer text), cs.length⟩ := by
  rw [htext] at h
  obtain ⟨hc, hcs⟩ := isDigits_cons.1 h
  have hofList : String.ofList (c :: cs) = text := by rw [← htext, String.ofList_toList]
  rw [readToken, isWordStart_of_isDigit hc, if_neg Bool.false_ne_true, if_pos hc, readNumber]
  simp [hrest.takeWhile_append (by decide : Char.isDigit ' ' = false) hcs,
    readFraction_apart hrest, hofList]

/-- A spelled decimal is read back. -/
lemma readFloat_spelling (hrest : Apart rest) {c : Char} {cs fraction : List Char}
    (h : isDigits (c :: cs) = true) (hfraction : isDigits fraction = true) :
    readToken c ((cs ++ '.' :: fraction) ++ rest) =
      ⟨.ok (.float (String.ofList (c :: (cs ++ '.' :: fraction)))),
        (cs ++ '.' :: fraction).length⟩ := by
  obtain ⟨hc, hcs⟩ := isDigits_cons.1 h
  obtain _ | ⟨d, ds⟩ := fraction
  · simp [isDigits] at hfraction
  obtain ⟨hd, hds⟩ := isDigits_cons.1 hfraction
  have hwhole : (cs ++ '.' :: d :: (ds ++ rest)).takeWhile Char.isDigit = cs := by
    rw [List.takeWhile_append_of_pos (by simpa using hcs)]
    simp [show Char.isDigit '.' = false by decide]
  have htail : readFraction ('.' :: d :: (ds ++ rest)) = '.' :: d :: ds := by
    rw [readFraction, if_pos hd,
      hrest.takeWhile_append (by decide : Char.isDigit ' ' = false) hds]
  rw [readToken, isWordStart_of_isDigit hc, if_neg Bool.false_ne_true, if_pos hc, readNumber]
  simp [hwhole, htail]

/-- The body of a string is read up to its closing quote. -/
lemma readStringBody_stringBody (value rest : List Char) :
    readStringBody (stringBody value ++ '"' :: rest) =
      (.ok value, (stringBody value).length + 1) := by
  induction value with
  | nil => rfl
  | cons c value ih =>
    by_cases hc : c = '"' ∨ c = '\\'
    · have hbody : stringBody (c :: value) = '\\' :: c :: stringBody value := by
        simp [stringBody, hc]
      have hescape : stringEscape c = [c] := by
        rcases hc with rfl | rfl <;> rfl
      rw [hbody, List.cons_append, List.cons_append, readStringBody, ih, hescape]
      rfl
    · have hbody : stringBody (c :: value) = c :: stringBody value := by
        simp [stringBody, hc]
      obtain ⟨hquote, hbackslash⟩ := not_or.1 hc
      rw [hbody, List.cons_append, readStringBody, ih]
      · rfl
      · exact fun h => hquote h
      · exact fun h _ => hbackslash h
      · exact fun d ds h _ => hbackslash h

/-- A spelled string is read back. -/
lemma readString_spelling (value rest : List Char) :
    readToken '"' ((stringBody value ++ ['"']) ++ rest) =
      ⟨.ok (.string (String.ofList value)), (stringBody value ++ ['"']).length⟩ := by
  have hbody := readStringBody_stringBody value rest
  have hread : readToken '"' = readString := by
    funext cs
    rfl
  rw [hread, List.append_assoc, List.singleton_append, readString, hbody]
  simp [Except.map]

/-- A spelled character is read back. -/
lemma readChar_spelling (c : Char) (rest : List Char) :
    readToken '\'' ((charBody c ++ ['\'']) ++ rest) =
      ⟨.ok (.char c), (charBody c ++ ['\'']).length⟩ := by
  have hread : readToken '\'' = readChar := by
    funext cs
    rfl
  rw [hread]
  by_cases hline : c = '\n'
  · subst hline
    rfl
  by_cases hquote : c = '\''
  · subst hquote
    rfl
  by_cases hbackslash : c = '\\'
  · subst hbackslash
    rfl
  have hbody : charBody c = [c] := by simp [charBody, hline, hquote, hbackslash]
  rw [hbody, List.append_assoc, List.singleton_append, List.singleton_append, readChar]
  · simp [closeChar]
  · exact fun h => hquote h
  · exact fun h => hline h
  · exact fun h _ => hbackslash h
  · exact fun d ds h _ => hbackslash h

/-- Every mark is found by its first character, behind which its own text goes on or ends. -/
lemma punctOf?_text (mark : Punct) :
    mark.text.toList.head?.any (fun c =>
      !isWordStart c && !c.isDigit && c ≠ '"' && c ≠ '\'' &&
        punctOf? c (mark.text.toList.tail ++ [' ']).head? =
          some (mark, !mark.text.toList.tail.isEmpty) &&
        punctOf? c mark.text.toList.tail.head? = some (mark, !mark.text.toList.tail.isEmpty) &&
        mark.text.toList.tail.length ≤ 1) = true := by
  cases mark <;> decide

/-- The first character of a mark starts no other form of token.  Together with the second one, if
there is one, it makes the mark; and by itself it does so before a blank too. -/
lemma punctOf?_of_text {mark : Punct} {c : Char} {cs : List Char}
    (h : mark.text.toList = c :: cs) :
    (∀ ds, readToken c ds = readPunct c ds) ∧
      punctOf? c cs.head? = some (mark, !cs.isEmpty) ∧
      punctOf? c (cs ++ [' ']).head? = some (mark, !cs.isEmpty) ∧ cs.length ≤ 1 := by
  have htext := punctOf?_text mark
  rw [h] at htext
  simp only [List.head?_cons, Option.any_some, List.tail_cons, Bool.and_eq_true,
    Bool.not_eq_true', decide_eq_true_eq] at htext
  obtain ⟨⟨⟨⟨⟨⟨hword, hdigit⟩, hquote⟩, hchar⟩, hblank⟩, hend⟩, hlength⟩ := htext
  refine ⟨fun ds => ?_, of_decide_eq_true hend, of_decide_eq_true hblank,
    of_decide_eq_true hlength⟩
  rw [readToken, hword, hdigit, if_neg Bool.false_ne_true, if_neg Bool.false_ne_true,
    if_neg hquote, if_neg hchar]

/-- A spelled mark is read back. -/
lemma readPunct_spelling (hrest : Apart rest) {mark : Punct} {c : Char} {cs : List Char}
    (h : mark.text.toList = c :: cs) :
    readToken c (cs ++ rest) = ⟨.ok (.punct mark), cs.length⟩ := by
  obtain ⟨hread, hend, hblank, hlength⟩ := punctOf?_of_text h
  have hmark : punctOf? c (cs ++ rest).head? = some (mark, !cs.isEmpty) := by
    cases cs with
    | cons d ds => exact hend
    | nil =>
      cases rest with
      | nil => exact hend
      | cons d rest =>
        obtain rfl := hrest d rfl
        exact hblank
  have hcount : (if (!cs.isEmpty) = true then 1 else 0) = cs.length := by
    cases cs with
    | nil => rfl
    | cons d ds =>
      obtain rfl : ds = [] := List.length_eq_zero_iff.1 (by simpa using hlength)
      rfl
  rw [hread, readPunct, hmark]
  simp only [hcount]

/-- The text of a keyword is a word that is reserved for it. -/
lemma keyword_text (word : Keyword) :
    isWord word.text.toList = true ∧ Keyword.ofText? word.text = some word := by
  cases word <;> decide

/-- **A token that is written is read**, up to the end of its spelling.

**Proof sketch.** One case a kind.  Words and numbers end where a character comes that cannot
continue them, strings and characters at the closing quote, and marks where their text ends,
since no mark starts with a blank. -/
lemma readToken_spelling {k : TokenKind} (h : k.Writable) :
    ∃ c cs, k.spelling.toList = c :: cs ∧
      ∀ rest, Apart rest → readToken c (cs ++ rest) = ⟨.ok k, cs.length⟩ := by
  cases k with
  | keyword word =>
    obtain ⟨hword, hkeyword⟩ := keyword_text word
    cases htext : word.text.toList with
    | nil => simp [htext, isWord] at hword
    | cons c cs =>
      refine ⟨c, cs, htext, fun rest hrest => ?_⟩
      rw [readWord_spelling hrest htext hword, hkeyword]
      rfl
  | identifier name =>
    obtain ⟨hword, hkeyword⟩ : isWord name.toList = true ∧ Keyword.ofText? name = none := by
      simpa [TokenKind.Writable, isIdentifier] using h
    cases htext : name.toList with
    | nil => simp [htext, isWord] at hword
    | cons c cs =>
      refine ⟨c, cs, htext, fun rest hrest => ?_⟩
      rw [readWord_spelling hrest htext hword, hkeyword]
      rfl
  | integer text =>
    have hdigits : isDigits text.toList = true := h
    cases htext : text.toList with
    | nil => simp [htext, isDigits] at hdigits
    | cons c cs => exact ⟨c, cs, htext, fun rest hrest => readInteger_spelling hrest htext hdigits⟩
  | float text =>
    obtain ⟨whole, fraction, htext, hwhole, hfraction⟩ : IsDecimal text.toList := h
    obtain _ | ⟨c, cs⟩ := whole
    · simp [isDigits] at hwhole
    have hofList : String.ofList (c :: (cs ++ '.' :: fraction)) = text := by
      rw [← String.ofList_toList (s := text), htext, List.cons_append]
    refine ⟨c, cs ++ '.' :: fraction, htext, fun rest hrest => ?_⟩
    rw [readFloat_spelling hrest hwhole hfraction, hofList]
  | string value =>
    refine ⟨'"', stringBody value.toList ++ ['"'], String.toList_ofList, fun rest _ => ?_⟩
    rw [readString_spelling, String.ofList_toList]
  | char value =>
    exact ⟨'\'', charBody value ++ ['\''], String.toList_ofList, fun rest _ =>
      readChar_spelling value rest⟩
  | punct mark =>
    cases htext : mark.text.toList with
    | nil => simpa [htext] using punctOf?_text mark
    | cons c cs => exact ⟨c, cs, htext, fun rest hrest => readPunct_spelling hrest htext⟩
  | endOfFile => exact h.elim

/-- No blank and no comment starts where a token is read that stands apart. -/
lemma blankLength_eq_zero (hrest : Apart rest) {c : Char} {cs : List Char} {k : TokenKind}
    (h : readToken c (cs ++ rest) = ⟨.ok k, cs.length⟩) :
    blankLength false (c :: (cs ++ rest)) = 0 := by
  have hblank : isBlank c = false := by
    rw [Bool.eq_false_iff]
    intro hc
    obtain rfl | rfl | rfl | rfl : c = ' ' ∨ c = '\t' ∨ c = '\r' ∨ c = '\n' := by
      simpa [isBlank, or_assoc] using hc
    all_goals simp [readToken, readPunct, punctOf?, isWordStart] at h
  unfold blankLength
  simp only [Bool.false_eq_true, if_false, hblank]
  split
  · next d ds hds =>
    by_cases hc : c = '/'
    · -- a slash is a token of its own, so what comes next stands apart from it
      subst hc
      have hcs : cs = [] := by
        have hlength : (readToken '/' (cs ++ rest)).length = 0 := by
          simp [readToken, readPunct, punctOf?, isWordStart]
        rw [h] at hlength
        exact List.length_eq_zero_iff.1 hlength
      subst hcs
      obtain rfl := hrest d (by rw [← List.nil_append rest, hds]; rfl)
      simp
    · simp [hc]
  · rfl

/-! ## Reading a text -/

/-- What is written behind a token: nothing, or a blank and the other tokens. -/
lemma apart_tail (ks : List TokenKind) :
    Apart (if ks = [] then [] else ' ' :: (render ks).toList) := by
  intro c hc
  split at hc
  · simp at hc
  · simpa [eq_comm] using hc

/-- The blank between two spellings is skipped. -/
lemma blankLength_blank (cs : List Char) :
    blankLength false (' ' :: cs) = blankLength false cs + 1 := by
  rw [blankLength.eq_def]
  rfl

/-- A written text starts with its first token. -/
lemma blankLength_render {ks : List TokenKind} (h : ∀ k ∈ ks, k.Writable) :
    blankLength false (render ks).toList = 0 := by
  cases ks with
  | nil => rfl
  | cons k ks =>
    obtain ⟨c, cs, hspelling, hread⟩ := readToken_spelling (h k List.mem_cons_self)
    have hrest := apart_tail ks
    rw [toList_render_cons, hspelling, List.cons_append]
    exact blankLength_eq_zero hrest (hread _ hrest)

namespace Scanner

/-- A step over a token that stands apart. -/
lemma next_of_readToken {s : Scanner} {k : TokenKind} {c : Char} {cs rest : List Char}
    (hs : s.skipBlanks.rest = c :: (cs ++ rest))
    (h : readToken c (cs ++ rest) = ⟨.ok k, cs.length⟩) :
    ∃ t, s.next.1 = .ok t ∧ t.kind = k ∧ t.file = s.file ∧ s.next.2.rest = rest ∧
      s.next.2.file = s.file := by
  unfold next
  simp only [hs, h]
  refine ⟨_, rfl, rfl, rfl, ?_, rfl⟩
  rw [skip_rest, hs, List.drop_succ_cons, List.drop_left]

/-- **The steps over a written text are its tokens**, and then the end of the file.

**Proof sketch.** By induction on the kinds.  A step reads the first token and stops at the blank
behind it, which is all that is skipped before the next one. -/
lemma steps_render {ks : List TokenKind} (h : ∀ k ∈ ks, k.Writable) : ∀ {s : Scanner},
    s.skipBlanks.rest = (render ks).toList →
      ∃ tokens, s.steps.mapM id = .ok tokens ∧ kinds tokens = ks ++ [.endOfFile] ∧
        ∀ t ∈ tokens, t.file = s.file := by
  induction ks with
  | nil =>
    intro s hs
    have hrest : s.skipBlanks.rest = [] := by simpa [render] using hs
    rw [steps, if_pos (by simp [atEnd, hrest])]
    unfold next
    simp only [hrest]
    exact ⟨_, rfl, rfl, by simp [skipBlanks, skip]⟩
  | cons k ks ih =>
    intro s hs
    obtain ⟨c, cs, hspelling, hread⟩ := readToken_spelling (h k List.mem_cons_self)
    have hapart := apart_tail ks
    rw [toList_render_cons, hspelling, List.cons_append] at hs
    obtain ⟨t, ht, hkind, hfile, hrest, hfile'⟩ := next_of_readToken hs (hread _ hapart)
    have hks : ∀ k ∈ ks, k.Writable := fun k' hk' => h k' (List.mem_cons_of_mem _ hk')
    have hskip : s.next.2.skipBlanks.rest = (render ks).toList := by
      rw [skipBlanks, skip_rest, hrest]
      by_cases hnil : ks = []
      · simp [hnil, render]
      · rw [if_neg hnil, blankLength_blank, blankLength_render hks, List.drop_one, List.tail_cons]
    obtain ⟨tokens, hsteps, hkinds, hfiles⟩ := ih hks hskip
    rw [steps, if_neg (by simp [atEnd, hs]), List.mapM_cons, ht, hsteps]
    refine ⟨t :: tokens, rfl, ?_, ?_⟩
    · rw [kinds_cons, hkind, hkinds, List.cons_append]
    · intro t' ht'
      rcases List.mem_cons.1 ht' with rfl | ht'
      · exact hfile
      · rw [hfiles t' ht', hfile']

end Scanner

/-- **Reading undoes writing.** The tokens of a written text have the kinds that were written, up
to the end of the file. -/
lemma scan_render {ks : List TokenKind} (h : ∀ k ∈ ks, k.Writable) (file : String) :
    ∃ tokens, scan (render ks) file = .ok tokens ∧ kinds tokens = ks ++ [.endOfFile] ∧
      ∀ t ∈ tokens, t.file = file := by
  refine Scanner.steps_render h ?_
  have hrest : (Scanner.ofText (render ks) file).rest = (render ks).toList := rfl
  rw [Scanner.skipBlanks, Scanner.skip_rest, hrest, blankLength_render h, List.drop_zero]

end Idyl
