import Mathlib
import Idyl.Proofs.Token.Steps

/-!
# The longest text that fits

What a scanner takes for a token is the longest piece of text, from where it stands, that is the
text of any token; and it finds a fault exactly where no piece of text is.

For the proof, a reader is compared with every text of a token that the text ahead starts with: the
reader finds a token, and takes at least as much.  Strings and characters end at their closing
quote, so there is only one such text; words, numbers and marks go on as long as they can.

## Main definitions

* `Idyl.StartsToken` — text with no blank and no comment in front.

## Main results

* `Idyl.blankLength_eq_of_trivia` — all blanks and comments are skipped, and nothing else.
* `Idyl.Lexeme.reaches` — a token is found wherever there is one, and it is not shorter.
* `Idyl.Scanner.next_longest_match` — a step takes the longest text that fits.
-/

set_option autoImplicit false

namespace Idyl

/-! ## Where blanks end -/

/-- Text that starts with neither a blank nor a comment. -/
structure StartsToken (rest : List Char) : Prop where
  solid : ∀ c ∈ rest.head?, c ∉ [' ', '\t', '\r', '\n']
  uncommented : ¬['/', '/'] <+: rest

/-- The blanks. -/
lemma isBlank_eq_true_iff {c : Char} : isBlank c = true ↔ c ∈ [' ', '\t', '\r', '\n'] := by
  simp [isBlank, or_assoc]

/-- In a comment a character is skipped, and a line feed ends the comment. -/
lemma blankLength_comment_cons (c : Char) (cs : List Char) :
    blankLength true (c :: cs) = blankLength (c ≠ '\n') cs + 1 := by
  rw [blankLength.eq_def]
  rfl

/-- A blank is skipped. -/
lemma blankLength_blank_cons {c : Char} (hc : c ∈ [' ', '\t', '\r', '\n']) (cs : List Char) :
    blankLength false (c :: cs) = blankLength false cs + 1 := by
  rw [blankLength.eq_def]
  simp [isBlank_eq_true_iff.2 hc]

/-- Two slashes start a comment. -/
lemma blankLength_slashes (cs : List Char) :
    blankLength false ('/' :: '/' :: cs) = blankLength true cs + 2 := by
  rw [blankLength.eq_def]
  rfl

/-- Nothing is skipped where a token starts. -/
lemma StartsToken.blankLength_eq_zero {rest : List Char} (h : StartsToken rest) :
    blankLength false rest = 0 := by
  cases rest with
  | nil => rfl
  | cons c cs =>
    have hblank : isBlank c = false := by
      rw [Bool.eq_false_iff, Ne, isBlank_eq_true_iff]
      exact h.solid c rfl
    rw [blankLength.eq_def]
    cases cs with
    | nil => simp [hblank]
    | cons d ds =>
      have hslash : ¬(c = '/' ∧ d = '/') := by
        rintro ⟨rfl, rfl⟩
        exact h.uncommented (List.prefix_append ['/', '/'] ds)
      simp [hblank, hslash]

/-- Behind what is skipped stands no blank and no comment. -/
lemma startsToken_drop_blankLength (inComment : Bool) (cs : List Char) :
    StartsToken (cs.drop (blankLength inComment cs)) := by
  fun_induction blankLength inComment cs with
  | case1 inComment => exact ⟨by simp, by simp⟩
  | case2 c cs ih => exact ih
  | case3 inComment c cs hin hblank ih => exact ih
  | case4 inComment c hin hblank d ds hslash ih => exact ih
  | case5 inComment c hin hblank d ds hslash =>
    refine ⟨?_, fun hahead => ?_⟩
    · rintro c' ⟨rfl⟩
      rwa [← isBlank_eq_true_iff]
    · obtain ⟨rfl, htail⟩ := List.cons_prefix_cons.1 hahead
      obtain ⟨rfl, -⟩ := List.cons_prefix_cons.1 htail
      exact hslash rfl
  | case6 inComment c hin hblank =>
    refine ⟨?_, fun hahead => ?_⟩
    · rintro c' ⟨rfl⟩
      rwa [← isBlank_eq_true_iff]
    · simpa using hahead.length_le

/-- A comment is skipped up to the end of its line. -/
lemma blankLength_comment {body rest : List Char} (hbody : '\n' ∉ body)
    (hend : ∀ c ∈ rest.head?, c = '\n') :
    blankLength true (body ++ rest) = body.length + blankLength false rest := by
  induction body with
  | nil =>
    cases rest with
    | nil => rfl
    | cons c rest =>
      obtain rfl := hend c rfl
      rw [List.nil_append, blankLength_comment_cons, blankLength_blank_cons (by simp)]
      simp
  | cons c body ih =>
    obtain ⟨hc, hbody⟩ : c ≠ '\n' ∧ '\n' ∉ body := by
      simpa [eq_comm] using hbody
    rw [List.cons_append, blankLength_comment_cons, decide_eq_true hc, ih hbody, List.length_cons]
    omega

/-- **All blanks and comments are skipped, and nothing else.** -/
lemma blankLength_eq_of_trivia {gap rest : List Char} (hgap : Trivia rest gap)
    (hrest : StartsToken rest) : blankLength false (gap ++ rest) = gap.length := by
  induction hgap with
  | nil => exact hrest.blankLength_eq_zero
  | blank hc _ ih => rw [List.cons_append, blankLength_blank_cons hc, ih, List.length_cons]
  | @comment body gap hbody hend _ ih =>
    rw [List.cons_append, List.cons_append, List.append_assoc, blankLength_slashes,
      blankLength_comment hbody hend, ih]
    simp

/-! ## Words and numbers -/

/-- Characters that pass a test are taken as long as they go on. -/
lemma length_le_takeWhile {test : Char → Bool} {ds cs : List Char} (hahead : ds <+: cs)
    (hds : ds.all test = true) : ds.length ≤ (cs.takeWhile test).length := by
  obtain ⟨rest, rfl⟩ := hahead
  rw [List.takeWhile_append_of_pos (by simpa using hds), List.length_append]
  omega

/-- A reader that finds a token and takes at least this many characters, the first one included. -/
def Lexed.Reaches (lexed : Lexed) (n : Nat) : Prop :=
  (∃ kind, lexed.outcome = .ok kind) ∧ n ≤ lexed.length + 1

/-- A word that is ahead is read to its end, or further. -/
lemma readWord_reaches {text : List Char} {c : Char} {cs : List Char} (h : isWord text = true)
    (hahead : text <+: c :: cs) : (readToken c cs).Reaches text.length := by
  cases text with
  | nil => simp [isWord] at h
  | cons d ds =>
    obtain ⟨rfl, hds⟩ := List.cons_prefix_cons.1 hahead
    obtain ⟨hstart, hall⟩ : isWordStart d = true ∧ ds.all isWordRest = true := by
      simpa only [isWord, Bool.and_eq_true] using h
    rw [readToken, if_pos hstart]
    refine ⟨⟨_, rfl⟩, ?_⟩
    have hle := length_le_takeWhile hds hall
    simp only [readWord, List.length_cons]
    omega

/-- What starts with a digit is read as a number. -/
lemma readToken_digit {c : Char} (hc : c.isDigit = true) (cs : List Char) :
    readToken c cs = readNumber c cs := by
  rw [readToken, isWordStart_of_isDigit hc, if_neg Bool.false_ne_true, if_pos hc]

/-- Digits that are ahead are read to their end, or further. -/
lemma readInteger_reaches {text : List Char} {c : Char} {cs : List Char}
    (h : isDigits text = true) (hahead : text <+: c :: cs) :
    (readToken c cs).Reaches text.length := by
  cases text with
  | nil => simp [isDigits] at h
  | cons d ds =>
    obtain ⟨rfl, hds⟩ := List.cons_prefix_cons.1 hahead
    obtain ⟨hd, hall⟩ := isDigits_cons.1 h
    rw [readToken_digit hd]
    refine ⟨⟨_, rfl⟩, ?_⟩
    have hle := length_le_takeWhile hds hall
    simp only [readNumber, List.length_cons]
    omega

/-- The digits before a point are all taken, and then the point and the digits behind it. -/
lemma readFloat_reaches {text : List Char} {c : Char} {cs : List Char} (h : IsDecimal text)
    (hahead : text <+: c :: cs) : (readToken c cs).Reaches text.length := by
  obtain ⟨whole, fraction, rfl, hwhole, hfraction⟩ := h
  obtain _ | ⟨d, ds⟩ := whole
  · simp [isDigits] at hwhole
  obtain _ | ⟨e, es⟩ := fraction
  · simp [isDigits] at hfraction
  obtain ⟨hd, hds⟩ := isDigits_cons.1 hwhole
  obtain ⟨he, hes⟩ := isDigits_cons.1 hfraction
  rw [List.cons_append] at hahead
  obtain ⟨rfl, rest, rfl⟩ := List.cons_prefix_cons.1 hahead
  have htake : ((ds ++ '.' :: e :: es) ++ rest).takeWhile Char.isDigit = ds := by
    rw [List.append_assoc, List.takeWhile_append_of_pos (by simpa using hds)]
    simp [show Char.isDigit '.' = false by decide]
  have hdrop : ((ds ++ '.' :: e :: es) ++ rest).drop ds.length = '.' :: e :: (es ++ rest) := by
    rw [List.append_assoc, List.drop_left]
    rfl
  have hle := length_le_takeWhile (List.prefix_append es rest) hes
  rw [readToken_digit hd]
  refine ⟨⟨_, rfl⟩, ?_⟩
  simp only [readNumber, htake, hdrop, readFraction, he, if_true, List.length_cons,
    List.length_append]
  omega

/-! ## Strings and characters -/

/-- **A body is read, and then what stands behind it.** -/
lemma readStringBody_append {body value : List Char} (h : StringText body value)
    (rest : List Char) :
    readStringBody (body ++ rest) =
      ((readStringBody rest).1.map (value ++ ·), body.length + (readStringBody rest).2) := by
  have hmap : ∀ (x : Except LexFault (List Char)) (xs ys : List Char),
      (x.map (ys ++ ·)).map (xs ++ ·) = x.map (xs ++ ys ++ ·) := by
    intro x xs ys
    cases x <;> simp [Except.map]
  induction h with
  | nil =>
    rw [List.nil_append, List.length_nil, Nat.zero_add]
    cases readStringBody rest with
    | mk result length => cases result <;> rfl
  | @plain c body value hquote hbackslash _ ih =>
    rw [List.cons_append, readStringBody, ih]
    · simp only [List.length_cons, Nat.add_right_comm]
      exact congrArg (·, _) (hmap _ [c] value)
    · exact fun hc => hquote hc
    · exact fun hc _ => hbackslash hc
    · exact fun d ds hc _ => hbackslash hc
  | @escape c text body value hescape _ ih =>
    obtain rfl := stringEscape_iff.1 hescape
    rw [List.cons_append, List.cons_append, readStringBody, ih]
    simp only [List.length_cons, hmap, Nat.add_right_comm]

/-- The body of a string is read up to its closing quote, however it is written. -/
lemma readStringBody_of_text {body value : List Char} (h : StringText body value)
    (rest : List Char) :
    readStringBody (body ++ '"' :: rest) = (.ok value, body.length + 1) := by
  have hquote : readStringBody ('"' :: rest) = (.ok [], 1) := rfl
  rw [readStringBody_append h, hquote]
  exact congrArg (fun v => (Except.ok v, body.length + 1)) (List.append_nil value)

/-- A character is read up to its closing quote, however it is written. -/
lemma readChar_of_text {body : List Char} {value : Char} (h : CharText body value)
    (rest : List Char) :
    readChar (body ++ '\'' :: rest) = ⟨.ok (.char value), body.length + 1⟩ := by
  cases h with
  | plain hquote hline hbackslash =>
    rw [List.singleton_append, readChar]
    · simp [closeChar]
    · exact fun hc => hquote hc
    · exact fun hc => hline hc
    · exact fun hc _ => hbackslash hc
    · exact fun d ds hc _ => hbackslash hc
  | escape hescape =>
    rw [List.cons_append, List.singleton_append, readChar, charEscape_iff.1 hescape]
    simp [closeChar]

/-- What starts with a double quote is read as a string. -/
lemma readToken_doubleQuote (cs : List Char) : readToken '"' cs = readString cs := rfl

/-- What starts with a single quote is read as a character. -/
lemma readToken_singleQuote (cs : List Char) : readToken '\'' cs = readChar cs := rfl

/-- A string that is ahead is read to its end. -/
lemma readString_reaches {body value : List Char} {c : Char} {cs : List Char}
    (h : StringText body value) (hahead : '"' :: (body ++ ['"']) <+: c :: cs) :
    (readToken c cs).Reaches (body.length + 2) := by
  obtain ⟨rfl, rest, rfl⟩ := List.cons_prefix_cons.1 hahead
  have hbody := readStringBody_of_text h rest
  rw [readToken_doubleQuote, readString, List.append_assoc, List.singleton_append, hbody]
  exact ⟨⟨_, rfl⟩, le_rfl⟩

/-- A character literal that is ahead is read to its end. -/
lemma readChar_reaches {body : List Char} {value c : Char} {cs : List Char}
    (h : CharText body value) (hahead : '\'' :: (body ++ ['\'']) <+: c :: cs) :
    (readToken c cs).Reaches (body.length + 2) := by
  obtain ⟨rfl, rest, rfl⟩ := List.cons_prefix_cons.1 hahead
  rw [readToken_singleQuote, List.append_assoc, List.singleton_append, readChar_of_text h rest]
  exact ⟨⟨_, rfl⟩, le_rfl⟩

/-! ## Marks -/

/-- A character that is a mark by itself starts a mark whatever follows it. -/
lemma punctOf?_isSome {c : Char} (h : (punctOf? c none).isSome = true) (after : Option Char) :
    (punctOf? c after).isSome = true := by
  by_cases hafter : after = some '='
  · simp only [punctOf?, hafter, if_true] at h ⊢
    split at h <;> simp_all
  · have hsame : punctOf? c after = punctOf? c none := by
      simp only [punctOf?, hafter, if_false, reduceCtorEq]
    rwa [hsame]

/-- A mark that is ahead is read to its end, or further. -/
lemma readPunct_reaches {mark : Punct} {c : Char} {cs : List Char}
    (hahead : mark.text.toList <+: c :: cs) :
    (readToken c cs).Reaches mark.text.toList.length := by
  cases htext : mark.text.toList with
  | nil =>
    have hnil := punctOf?_text mark
    simp [htext] at hnil
  | cons d ds =>
    rw [htext] at hahead
    obtain ⟨rfl, rest, rfl⟩ := List.cons_prefix_cons.1 hahead
    obtain ⟨hread, hmark, -, hlength⟩ := punctOf?_of_text htext
    rw [hread, readPunct]
    cases ds with
    | nil =>
      -- a longer mark may be found than the one that is there
      have hsome : (punctOf? d none).isSome = true := by
        rw [List.head?_nil] at hmark
        rw [hmark]
        rfl
      obtain ⟨⟨found, pair⟩, hfound⟩ :=
        Option.isSome_iff_exists.1 (punctOf?_isSome hsome rest.head?)
      rw [List.nil_append, hfound]
      exact ⟨⟨_, rfl⟩, by simp⟩
    | cons e es =>
      rw [List.cons_append, List.head?_cons] at *
      rw [hmark]
      exact ⟨⟨_, rfl⟩, by simpa using hlength⟩

/-! ## Tokens -/

/-- **A token is found wherever there is one, and it is not shorter.**

**Proof sketch.** One case a form of tokens. -/
lemma Lexeme.reaches {kind : TokenKind} {text : List Char} {c : Char} {cs : List Char}
    (h : Lexeme kind text) (hahead : text <+: c :: cs) :
    (readToken c cs).Reaches text.length := by
  cases h with
  | keyword word => exact readWord_reaches (keyword_text word).1 hahead
  | identifier h =>
    have hword := (Bool.and_eq_true_iff.1 h).1
    exact readWord_reaches hword hahead
  | integer h => exact readInteger_reaches h hahead
  | float h => exact readFloat_reaches h hahead
  | string h => simpa using readString_reaches h hahead
  | char h => simpa using readChar_reaches h hahead
  | punct mark => exact readPunct_reaches hahead

/-! ## Faults -/

/-- A string that does not end has no stray character. -/
lemma readStringBody_ne_unexpected (cs : List Char) (c : Char) :
    (readStringBody cs).1 ≠ .error (.unexpected c) := by
  fun_induction readStringBody cs with
  | case1 | case2 | case3 => simp
  | case4 d cs result length hread ih | case5 d cs _ _ _ result length hread ih =>
    rw [hread] at ih
    cases result with
    | ok value => simp [Except.map]
    | error fault => simpa [Except.map] using ih

/-- A literal that does not close is no unexpected character. -/
lemma closeChar_ne_unexpected (value : Char) (length : Nat) (cs : List Char) (c : Char) :
    (closeChar value length cs).outcome ≠ .error (.unexpected c) := by
  unfold closeChar
  split
  · simp
  · split <;> simp

/-- No fault in a character literal is an unexpected character. -/
lemma readChar_ne_unexpected (cs : List Char) (c : Char) :
    (readChar cs).outcome ≠ .error (.unexpected c) := by
  fun_cases readChar cs with
  | case1 | case2 | case3 | case4 | case6 => simp
  | case5 | case7 => exact closeChar_ne_unexpected _ _ _ c

/-- No fault in a string is an unexpected character. -/
lemma readString_ne_unexpected (cs : List Char) (c : Char) :
    (readString cs).outcome ≠ .error (.unexpected c) := by
  have hbody := readStringBody_ne_unexpected cs c
  rw [readString]
  cases hread : (readStringBody cs).1 with
  | ok value => simp [hread, Except.map]
  | error fault => simpa [hread, Except.map] using hbody

/-- **A fault is a stray character** exactly if it does not start with a quote. -/
lemma readToken_unexpected_iff (c : Char) (cs : List Char) :
    (∃ d, (readToken c cs).outcome = .error (.unexpected d)) ↔
      (∃ fault, (readToken c cs).outcome = .error fault) ∧ c ≠ '"' ∧ c ≠ '\'' := by
  unfold readToken
  split_ifs with hword hdigit hquote hchar
  · simp [readWord]
  · simp [readNumber]
  · simp [readString_ne_unexpected, hquote]
  · simp [readChar_ne_unexpected, hchar]
  · rw [readPunct]
    cases punctOf? c cs.head? with
    | none => simp [hquote, hchar]
    | some found => simp

/-! ## Keywords -/

/-- The reserved words are the texts of keywords. -/
lemma mem_keyword_texts_iff {word : String} :
    word ∈ Keyword.all.map Keyword.text ↔ (Keyword.ofText? word).isSome = true := by
  rw [Keyword.ofText?, List.find?_isSome]
  simp

/-- A token is a keyword exactly if its text is a word, and one of the reserved ones. -/
lemma Lexeme.keyword_iff {kind : TokenKind} {text : List Char} (h : Lexeme kind text) :
    (∃ word, kind = .keyword word) ↔
      isWord text = true ∧ String.ofList text ∈ Keyword.all.map Keyword.text := by
  rw [mem_keyword_texts_iff]
  have hdigits : ∀ {cs ds : List Char}, isDigits cs = true → isWord (cs ++ ds) = false := by
    intro cs ds hcs
    cases cs with
    | nil => simp [isDigits] at hcs
    | cons c cs => simp [isWord, isWordStart_of_isDigit (isDigits_cons.1 hcs).1]
  cases h with
  | keyword word =>
    obtain ⟨hword, htext⟩ := keyword_text word
    simp [hword, htext]
  | identifier h =>
    have hnone := Option.isNone_iff_eq_none.1 (Bool.and_eq_true_iff.1 h).2
    simp [hnone]
  | @integer text h =>
    have hword : isWord (text.toList ++ []) = false := hdigits h
    rw [List.append_nil] at hword
    simp [hword]
  | float h =>
    obtain ⟨whole, fraction, htext, hwhole, -⟩ := h
    simp [htext, hdigits hwhole]
  | string h => simp [isWord, show isWordStart '"' = false by decide]
  | char h => simp [isWord, show isWordStart '\'' = false by decide]
  | punct mark =>
    have hword : isWord mark.text.toList = false := by cases mark <;> decide
    simp [hword]

/-! ## One step -/

namespace Scanner

variable {s : Scanner} {c : Char} {cs : List Char}

/-- A step over a token. -/
lemma next_of_ok {kind : TokenKind} (hs : s.skipBlanks.rest = c :: cs)
    (h : (readToken c cs).outcome = .ok kind) :
    s.next =
      (.ok ⟨kind, lexeme kind (c :: cs.take (readToken c cs).length),
          s.skipBlanks.pos.spanTo
            (s.skipBlanks.pos.after (c :: cs.take (readToken c cs).length)), s.file⟩,
        ⟨s.file, s.skipBlanks.pos.after (c :: cs.take (readToken c cs).length),
          cs.drop (readToken c cs).length⟩) := by
  unfold next
  simp only [hs, h, skip]
  rfl

/-- A step over a fault. -/
lemma next_of_error {fault : LexFault} (hs : s.skipBlanks.rest = c :: cs)
    (h : (readToken c cs).outcome = .error fault) :
    s.next =
      (.error ⟨fault, s.file,
          s.skipBlanks.pos.spanTo
            (s.skipBlanks.pos.after (c :: cs.take (readToken c cs).length))⟩,
        ⟨s.file, s.skipBlanks.pos.after (c :: cs.take (readToken c cs).length),
          cs.drop (readToken c cs).length⟩) := by
  unfold next
  simp only [hs, h, skip]
  rfl

/-- A step finds a token exactly if the text ahead starts with the text of one. -/
lemma next_ok_iff (hs : s.skipBlanks.rest = c :: cs) :
    (∃ t, s.next.1 = .ok t) ↔ ∃ kind text, text <+: c :: cs ∧ Lexeme kind text := by
  constructor
  · rintro ⟨t, ht⟩
    cases h : (readToken c cs).outcome with
    | error fault => simp [next_of_error hs h] at ht
    | ok kind =>
      refine ⟨kind, _, ?_, readToken_lexeme h⟩
      exact List.cons_prefix_cons.2 ⟨rfl, List.take_prefix _ _⟩
  · rintro ⟨kind, text, hahead, hlexeme⟩
    obtain ⟨⟨found, hfound⟩, -⟩ := hlexeme.reaches hahead
    exact ⟨_, by rw [next_of_ok hs hfound]⟩

/-- A step finds a stray character exactly if it finds a fault that does not start with a quote. -/
lemma next_unexpected_iff (hs : s.skipBlanks.rest = c :: cs) :
    (∃ e d, s.next.1 = .error e ∧ e.fault = .unexpected d) ↔
      (¬∃ t, s.next.1 = .ok t) ∧ c ≠ '"' ∧ c ≠ '\'' := by
  have hiff := readToken_unexpected_iff c cs
  cases h : (readToken c cs).outcome with
  | ok kind => simp [next_of_ok hs h]
  | error fault =>
    simp only [h, Except.error.injEq, exists_eq', true_and] at hiff
    simp only [next_of_error hs h, Except.error.injEq, exists_and_left, exists_eq_left', hiff,
      reduceCtorEq, exists_false, not_false_iff, true_and]

/-- **A step takes the longest text that fits.** Wherever a scanner stands, behind faults too, it
first skips all blanks and comments.  If any text is left then, the step finds a token exactly if
this text starts with the text of a token.  What it takes is the longest such text, and a keyword
exactly if it is a word and one of the reserved words.  It finds a stray character exactly if the
text starts with the text of no token, and not with a quote.

**Proof sketch.** What is read is a text of the token (`readToken_lexeme`), and the reader reaches
at least as far as any text of a token that stands there (`Lexeme.reaches`).  So a fault means that
there is none; by their first character faults are told apart (`readToken_unexpected_iff`). -/
theorem next_longest_match (s : Scanner) (h : s.skipBlanks.rest ≠ []) :
    (∃ gap, s.rest = gap ++ s.skipBlanks.rest ∧ Trivia s.skipBlanks.rest gap ∧
      StartsToken s.skipBlanks.rest) ∧
    ((∃ t, s.next.1 = .ok t) ↔
      ∃ kind text, text <+: s.skipBlanks.rest ∧ Lexeme kind text) ∧
    (∀ t, s.next.1 = .ok t → ∃ text,
      s.skipBlanks.rest = text ++ s.next.2.rest ∧
      t.span = s.skipBlanks.pos.spanTo (s.skipBlanks.pos.after text) ∧
      Lexeme t.kind text ∧
      (∀ kind' text', text' <+: s.skipBlanks.rest → Lexeme kind' text' →
        text'.length ≤ text.length) ∧
      ((∃ word, t.kind = .keyword word) ↔
        isWord text = true ∧ String.ofList text ∈ Keyword.all.map Keyword.text)) ∧
    ((∃ e c, s.next.1 = .error e ∧ e.fault = .unexpected c) ↔
      (∀ kind text, text <+: s.skipBlanks.rest → ¬Lexeme kind text) ∧
        s.skipBlanks.rest.head? ≠ some '"' ∧ s.skipBlanks.rest.head? ≠ some '\'') := by
  obtain ⟨c, cs, hs⟩ := List.exists_cons_of_ne_nil h
  have hgap : s.rest = s.rest.take (blankLength false s.rest) ++ s.skipBlanks.rest :=
    (List.take_append_drop _ _).symm
  refine ⟨⟨_, hgap, trivia_blankLength s.rest, startsToken_drop_blankLength false s.rest⟩,
    ?_, fun t ht => ?_, ?_⟩
  · rw [hs]
    exact next_ok_iff hs
  · cases hread : (readToken c cs).outcome with
    | error fault => simp [next_of_error hs hread] at ht
    | ok kind =>
      have hlexeme := readToken_lexeme hread
      rw [next_of_ok hs hread] at ht ⊢
      obtain rfl := Except.ok.inj ht
      refine ⟨_, ?_, rfl, hlexeme, ?_, hlexeme.keyword_iff⟩
      · rw [hs, List.cons_append, List.take_append_drop]
      · intro kind' text' hahead hlexeme'
        rw [hs] at hahead
        have hreach := (hlexeme'.reaches hahead).2
        have hbound := hahead.length_le
        rw [List.length_cons] at hbound ⊢
        rw [List.length_take]
        omega
  · rw [next_unexpected_iff hs, next_ok_iff hs, hs]
    simp [not_exists, not_and]

/-- A scanner behind a stray character, with a number and more ahead. -/
def behindFault : Scanner := (ofText "§ 1.2.3 // z" "a.idyl").next.2

/-- Of the texts ahead that are numbers, the longest is taken. -/
theorem next_longest_match_behindFault :
    behindFault.skipBlanks.rest ≠ [] ∧
    ∃ t text, behindFault.next.1 = .ok t ∧
      behindFault.skipBlanks.rest = text ++ behindFault.next.2.rest ∧ Lexeme t.kind text ∧
      ∀ kind' text', text' <+: behindFault.skipBlanks.rest → Lexeme kind' text' →
        text'.length ≤ text.length := by
  have h : behindFault.skipBlanks.rest ≠ [] := by decide +kernel
  have hinteger : Lexeme (.integer "1") "1".toList := .integer (by decide)
  have hahead : "1".toList <+: behindFault.skipBlanks.rest := by decide +kernel
  obtain ⟨-, hok, hlongest, -⟩ := next_longest_match behindFault h
  obtain ⟨t, ht⟩ := hok.2 ⟨_, _, hahead, hinteger⟩
  obtain ⟨text, hrest, -, hlexeme, hmax, -⟩ := hlongest t ht
  exact ⟨h, t, text, ht, hrest, hlexeme, hmax⟩

end Scanner

end Idyl
