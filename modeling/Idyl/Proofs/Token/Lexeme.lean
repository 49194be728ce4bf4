import Mathlib
import Idyl.Proofs.Token.Spelling

/-!
# Texts of tokens

Which texts a token can be read from.  Names, numbers, reserved words and marks are written in
one way; a string or a character can be written in several, since some characters may stand for
themselves or follow a backslash.

Whatever the scanner takes for a token is such a text, so every token that is read could have
been written.

## Main definitions

* `Idyl.StringEscape`, `Idyl.CharEscape` — what a backslash makes of the character behind it.
* `Idyl.StringText`, `Idyl.CharText` — what stands between quotes.
* `Idyl.Lexeme` — the texts of a token.

## Main results

* `Idyl.Lexeme.writable` — a token that has a text can be written.
* `Idyl.readToken_lexeme` — what is read as a token is a text of that token.
-/

set_option autoImplicit false

namespace Idyl

/-! ## Texts -/

/-- What may follow a backslash inside a string, and the text that both stand for.  An unknown
escape stands for itself. -/
inductive StringEscape : Char → List Char → Prop
  | lineFeed : StringEscape 'n' ['\n']
  | tab : StringEscape 't' ['\t']
  | carriageReturn : StringEscape 'r' ['\r']
  | quote : StringEscape '"' ['"']
  | backslash : StringEscape '\\' ['\\']
  | control : StringEscape 'e' ['\x1b']
  | unknown {c : Char} (h : c ∉ ['n', 't', 'r', '"', '\\', 'e']) : StringEscape c ['\\', c]

/-- What may follow a backslash inside a character literal, and the character that both stand
for. -/
inductive CharEscape : Char → Char → Prop
  | lineFeed : CharEscape 'n' '\n'
  | tab : CharEscape 't' '\t'
  | carriageReturn : CharEscape 'r' '\r'
  | backslash : CharEscape '\\' '\\'
  | quote : CharEscape '\'' '\''
  | doubleQuote : CharEscape '"' '"'

/-- The scanner knows the same escapes of strings. -/
lemma stringEscape_iff {c : Char} {text : List Char} :
    StringEscape c text ↔ stringEscape c = text := by
  constructor
  · rintro (_ | _ | _ | _ | _ | _ | hunknown)
    case unknown =>
      simp only [List.mem_cons, List.not_mem_nil, or_false, not_or] at hunknown
      simp [stringEscape, hunknown]
    all_goals rfl
  · rintro rfl
    unfold stringEscape
    split_ifs with hn ht hr hq hb he
    · exact hn ▸ .lineFeed
    · exact ht ▸ .tab
    · exact hr ▸ .carriageReturn
    · exact hq ▸ .quote
    · exact hb ▸ .backslash
    · exact he ▸ .control
    · exact .unknown (by simp [hn, ht, hr, hq, hb, he])

/-- The scanner knows the same escapes of characters. -/
lemma charEscape_iff {c value : Char} : CharEscape c value ↔ charEscape? c = some value := by
  constructor
  · rintro (_ | _ | _ | _ | _ | _) <;> rfl
  · intro h
    unfold charEscape? at h
    split_ifs at h with hn ht hr hb hq hd
    · exact hn ▸ Option.some.inj h ▸ .lineFeed
    · exact ht ▸ Option.some.inj h ▸ .tab
    · exact hr ▸ Option.some.inj h ▸ .carriageReturn
    · exact hb ▸ Option.some.inj h ▸ .backslash
    · exact hq ▸ Option.some.inj h ▸ .quote
    · exact hd ▸ Option.some.inj h ▸ .doubleQuote

/-- What stands between the quotes of a string, and the value it denotes. -/
inductive StringText : List Char → List Char → Prop
  | nil : StringText [] []
  | plain {c : Char} {body value : List Char} (hquote : c ≠ '"') (hbackslash : c ≠ '\\')
      (tail : StringText body value) : StringText (c :: body) (c :: value)
  | escape {c : Char} {text body value : List Char} (h : StringEscape c text)
      (tail : StringText body value) : StringText ('\\' :: c :: body) (text ++ value)

/-- What stands between the quotes of a character, and the value it denotes. -/
inductive CharText : List Char → Char → Prop
  | plain {c : Char} (hquote : c ≠ '\'') (hline : c ≠ '\n') (hbackslash : c ≠ '\\') :
      CharText [c] c
  | escape {c value : Char} (h : CharEscape c value) : CharText ['\\', c] value

/-- The texts of a token. -/
inductive Lexeme : TokenKind → List Char → Prop
  | keyword (word : Keyword) : Lexeme (.keyword word) word.text.toList
  | identifier {name : String} (h : isIdentifier name = true) :
      Lexeme (.identifier name) name.toList
  | integer {text : String} (h : isDigits text.toList = true) : Lexeme (.integer text) text.toList
  | float {text : String} (h : IsDecimal text.toList) : Lexeme (.float text) text.toList
  | string {body value : List Char} (h : StringText body value) :
      Lexeme (.string (String.ofList value)) ('"' :: (body ++ ['"']))
  | char {body : List Char} {value : Char} (h : CharText body value) :
      Lexeme (.char value) ('\'' :: (body ++ ['\'']))
  | punct (mark : Punct) : Lexeme (.punct mark) mark.text.toList

/-- A token that has a text can be written. -/
lemma Lexeme.writable {k : TokenKind} {text : List Char} (h : Lexeme k text) : k.Writable := by
  cases h with
  | identifier h | integer h | float h => exact h
  | keyword | string | char | punct => exact trivial

/-- A token of fixed spelling has no other text. -/
lemma Lexeme.eq_fixedText {k : TokenKind} {text : List Char} (h : Lexeme k text) {spelling : String}
    (hfixed : k.fixedText? = some spelling) : String.ofList text = spelling := by
  cases h with
  | keyword word =>
    obtain rfl : word.text = spelling := Option.some.inj hfixed
    exact String.ofList_toList
  | punct mark =>
    obtain rfl : mark.text = spelling := Option.some.inj hfixed
    exact String.ofList_toList
  | identifier | integer | float | string | char => simp [TokenKind.fixedText?] at hfixed

/-- The end of a file has no text. -/
lemma Lexeme.ne_endOfFile {k : TokenKind} {text : List Char} (h : Lexeme k text) :
    k ≠ .endOfFile := by
  rintro rfl
  exact h.writable

/-- No token has an empty text. -/
lemma Lexeme.ne_nil {k : TokenKind} {text : List Char} (h : Lexeme k text) : text ≠ [] := by
  cases h with
  | keyword word => cases word <;> decide
  | punct mark => cases mark <;> decide
  | identifier h | integer h =>
    intro hnil
    simp [isIdentifier, isWord, isDigits, hnil] at h
  | float h =>
    obtain ⟨whole, fraction, htext, -⟩ := h
    simp [htext]
  | string | char => simp

/-! ## What is read is such a text -/

/-- A word that is reserved is the text of its keyword. -/
lemma text_of_ofText? {word : String} {k : Keyword} (h : Keyword.ofText? word = some k) :
    k.text = word := by
  simpa using List.find?_some h

/-- As many characters as pass a test are those that pass it. -/
lemma take_length_takeWhile (test : Char → Bool) (cs : List Char) :
    cs.take (cs.takeWhile test).length = cs.takeWhile test :=
  (List.prefix_iff_eq_take.1 (List.takeWhile_prefix test)).symm

/-- What is read as a word is the text of a keyword or a name. -/
lemma readWord_lexeme {c : Char} {cs : List Char} {k : TokenKind} (hc : isWordStart c = true)
    (h : (readWord c cs).outcome = .ok k) : Lexeme k (c :: cs.take (readWord c cs).length) := by
  have htake : c :: cs.take (readWord c cs).length = c :: cs.takeWhile isWordRest := by
    rw [readWord, take_length_takeWhile]
  have hword : isWord (c :: cs.takeWhile isWordRest) = true := by
    simp only [isWord, hc, Bool.true_and]
    exact List.all_takeWhile
  rw [htake, ← String.toList_ofList (l := c :: cs.takeWhile isWordRest)]
  simp only [readWord, Except.ok.injEq] at h
  cases hkeyword : Keyword.ofText? (String.ofList (c :: cs.takeWhile isWordRest)) with
  | some word =>
    simp only [hkeyword] at h
    rw [← h, ← text_of_ofText? hkeyword]
    exact .keyword word
  | none =>
    simp only [hkeyword] at h
    rw [← h]
    refine .identifier ?_
    rw [isIdentifier, String.toList_ofList, hword, hkeyword]
    rfl

/-- A fraction stands at the front of the text, and is empty or a point and digits. -/
lemma readFraction_spec (cs : List Char) :
    cs.take (readFraction cs).length = readFraction cs ∧
      (readFraction cs = [] ∨ ∃ ds, readFraction cs = '.' :: ds ∧ isDigits ds = true) := by
  unfold readFraction
  split
  · next d cs =>
    split
    · next hd =>
      refine ⟨by simp [take_length_takeWhile], .inr ⟨_, rfl, ?_⟩⟩
      rw [isDigits_cons]
      exact ⟨hd, List.all_takeWhile⟩
    · exact ⟨rfl, .inl rfl⟩
  · exact ⟨rfl, .inl rfl⟩

/-- What is read as a number is the text of one. -/
lemma readNumber_lexeme {c : Char} {cs : List Char} {k : TokenKind} (hc : c.isDigit = true)
    (h : (readNumber c cs).outcome = .ok k) :
    Lexeme k (c :: cs.take (readNumber c cs).length) := by
  set whole := cs.takeWhile Char.isDigit with hwhole
  set fraction := readFraction (cs.drop whole.length) with hfraction
  obtain ⟨hfront, hform⟩ := readFraction_spec (cs.drop whole.length)
  rw [← hfraction] at hfront hform
  have htake : cs.take (readNumber c cs).length = whole ++ fraction := by
    rw [readNumber, ← hwhole, ← hfraction, List.take_add, hfront, hwhole, take_length_takeWhile]
  have hdigits : isDigits (c :: whole) = true := isDigits_cons.2 ⟨hc, List.all_takeWhile⟩
  rw [htake, ← String.toList_ofList (l := c :: (whole ++ fraction))]
  simp only [readNumber, ← hwhole, ← hfraction, Except.ok.injEq] at h
  rcases hform with hnil | ⟨ds, hds, hall⟩
  · simp only [hnil, List.append_nil, List.isEmpty_nil, if_true] at h ⊢
    rw [← h]
    refine .integer ?_
    rwa [String.toList_ofList]
  · simp only [hds, List.isEmpty_cons, Bool.false_eq_true, if_false] at h ⊢
    rw [← h]
    refine .float ?_
    rw [String.toList_ofList]
    exact ⟨c :: whole, ds, rfl, hdigits, hall⟩

/-- A character that starts no escape, finished or not, is no backslash. -/
lemma ne_backslash {c : Char} {cs : List Char} (hlast : c = '\\' → cs = [] → False)
    (hescape : ∀ d ds, c = '\\' → cs = d :: ds → False) : c ≠ '\\' := by
  rintro rfl
  cases cs with
  | nil => exact hlast rfl rfl
  | cons d ds => exact hescape d ds rfl rfl

/-- The body of a string ends at its closing quote. -/
lemma readStringBody_text {cs value : List Char} {n : Nat}
    (h : readStringBody cs = (.ok value, n)) :
    ∃ body, cs.take n = body ++ ['"'] ∧ StringText body value := by
  fun_induction readStringBody cs generalizing value n with
  | case1 => simp at h
  | case2 rest =>
    obtain ⟨rfl, rfl⟩ : [] = value ∧ 1 = n := by simpa using h
    exact ⟨[], rfl, .nil⟩
  | case3 => simp at h
  | case4 c cs result length hread ih =>
    cases result with
    | error fault => simp [Except.map] at h
    | ok tail =>
      obtain ⟨rfl, rfl⟩ : stringEscape c ++ tail = value ∧ length + 2 = n := by
        simpa [Except.map] using h
      obtain ⟨body, hbody, htext⟩ := ih hread
      exact ⟨'\\' :: c :: body, by simp [hbody], .escape (stringEscape_iff.2 rfl) htext⟩
  | case5 c cs hquote hlast hescape result length hread ih =>
    cases result with
    | error fault => simp [Except.map] at h
    | ok tail =>
      obtain ⟨rfl, rfl⟩ : c :: tail = value ∧ length + 1 = n := by
        simpa [Except.map] using h
      obtain ⟨body, hbody, htext⟩ := ih hread
      exact ⟨c :: body, by simp [hbody], .plain hquote (ne_backslash hlast hescape) htext⟩

/-- What is read as a string is the text of one. -/
lemma readString_lexeme {cs : List Char} {k : TokenKind} (h : (readString cs).outcome = .ok k) :
    Lexeme k ('"' :: cs.take (readString cs).length) := by
  rw [readString] at h ⊢
  cases hbody : readStringBody cs with
  | mk result length =>
    simp only [hbody] at h ⊢
    cases result with
    | error fault => simp [Except.map] at h
    | ok value =>
      obtain rfl : .string (String.ofList value) = k := by simpa [Except.map] using h
      obtain ⟨body, htake, htext⟩ := readStringBody_text hbody
      rw [htake]
      exact .string htext

/-- A character literal closes right behind its value. -/
lemma closeChar_lexeme {body rest : List Char} {value : Char} {k : TokenKind}
    (htext : CharText body value) (h : (closeChar value body.length rest).outcome = .ok k) :
    Lexeme k ('\'' :: (body ++ rest).take (closeChar value body.length rest).length) := by
  cases rest with
  | nil => simp [closeChar] at h
  | cons d ds =>
    rw [closeChar] at h ⊢
    split at h
    · next hd =>
      obtain rfl : .char value = k := by simpa using h
      rw [if_pos hd, hd, List.take_length_add_append]
      exact .char htext
    · simp at h

/-- What is read as a character is the text of one. -/
lemma readChar_lexeme {cs : List Char} {k : TokenKind} (h : (readChar cs).outcome = .ok k) :
    Lexeme k ('\'' :: cs.take (readChar cs).length) := by
  revert h
  fun_cases readChar cs with
  | case1 | case2 | case3 | case4 | case6 => simp
  | case5 c cs value hescape =>
    exact fun h => closeChar_lexeme (.escape (charEscape_iff.2 hescape)) h
  | case7 c cs hquote hline hlast hescape =>
    exact fun h => closeChar_lexeme (.plain hquote hline (ne_backslash hlast hescape)) h

/-- A mark is written by its first character and, if it takes two, an equals sign. -/
lemma text_of_punctOf? {c : Char} {after : Option Char} {mark : Punct} {pair : Bool}
    (h : punctOf? c after = some (mark, pair)) :
    mark.text.toList = (if pair then [c, '='] else [c]) ∧ (pair = true → after = some '=') := by
  by_cases hafter : after = some '='
  all_goals
    simp only [punctOf?, hafter, if_true, if_false] at h
    split at h <;> cases h <;> exact ⟨rfl, by simp [hafter]⟩

/-- What is read as a mark is the text of one. -/
lemma readPunct_lexeme {c : Char} {cs : List Char} {k : TokenKind}
    (h : (readPunct c cs).outcome = .ok k) : Lexeme k (c :: cs.take (readPunct c cs).length) := by
  rw [readPunct] at h ⊢
  cases hmark : punctOf? c cs.head? with
  | none => simp [hmark] at h
  | some found =>
    obtain ⟨mark, pair⟩ := found
    simp only [hmark, Except.ok.injEq] at h ⊢
    obtain ⟨htext, hafter⟩ := text_of_punctOf? hmark
    have htake : c :: cs.take (if pair = true then 1 else 0) = mark.text.toList := by
      rw [htext]
      cases pair with
      | false => rfl
      | true =>
        obtain ⟨ds, rfl⟩ := List.head?_eq_some_iff.1 (hafter rfl)
        rfl
    rw [htake, ← h]
    exact .punct mark

/-- **What is read as a token is a text of that token.** -/
lemma readToken_lexeme {c : Char} {cs : List Char} {k : TokenKind}
    (h : (readToken c cs).outcome = .ok k) : Lexeme k (c :: cs.take (readToken c cs).length) := by
  unfold readToken at h ⊢
  split_ifs at h ⊢ with hword hdigit hquote hchar
  · exact readWord_lexeme hword h
  · exact readNumber_lexeme hdigit h
  · rw [hquote]
    exact readString_lexeme h
  · rw [hchar]
    exact readChar_lexeme h
  · exact readPunct_lexeme h

end Idyl
