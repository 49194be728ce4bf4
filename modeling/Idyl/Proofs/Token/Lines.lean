import Mathlib
import Idyl.Proofs.Token.LineFeeds
import Idyl.Proofs.Token.Longest

/-!
# A text below another one

Two texts with a line feed between them are read as if each were read by itself.  The tokens of the
first text stand as they are; what is found in the second one is the same, moved down by the lines
and along by the bytes of the first.

A line feed ends a comment and cannot continue a token, so nothing of the first text runs into the
second.  Behind the line feed the scanner is the one that reads the second text alone, moved; and
all its steps are moved with it.

## Main definitions

* `Idyl.Span.below`, `Idyl.Token.below`, `Idyl.Located.below` — what stands below a text.

## Main results

* `Idyl.readToken_line` — a token is the same if a line feed follows the text.
* `Idyl.Scanner.steps_below` — the steps of a moved scanner.
* `Idyl.Scanner.Reads.steps_line` — the steps over two texts.
* `Idyl.scan_lines` — the tokens of two texts.
* `Idyl.scan_lines_overflow` — two texts that have a line more than can be numbered.
-/

set_option autoImplicit false

namespace Idyl

/-! ## Places below a text -/

/-- The place that a position has below a text and a line feed. -/
def Position.below (a : String) (p : Position) : Position :=
  ⟨p.offset + (a.utf8ByteSize + 1), p.line + UInt32.ofNat (a.toList.count '\n' + 1), p.column⟩

/-- The place that a span has below a text and a line feed. -/
def Span.below (a : String) (s : Span) : Span :=
  { start := s.start + (a.utf8ByteSize + 1), stop := s.stop + (a.utf8ByteSize + 1)
    line := s.line + UInt32.ofNat (a.toList.count '\n' + 1), column := s.column }

/-- A token that stands below a text and a line feed. -/
def Token.below (a : String) (t : Token) : Token := { t with span := t.span.below a }

/-- A fault that was found below a text and a line feed. -/
def Located.below {φ : Type} (a : String) (e : Located φ) : Located φ :=
  { e with span := e.span.below a }

namespace Position

variable (a : String)

/-- The span between two positions moves with them. -/
lemma spanTo_below (p q : Position) :
    (p.below a).spanTo (q.below a) = (p.spanTo q).below a := rfl

/-- One character further on, below a text. -/
lemma next_below (p : Position) (c : Char) : (p.below a).next c = (p.next c).below a := by
  unfold next below
  split
  · simp only [add_right_comm]
  · simp only [add_right_comm]

/-- Some characters further on, below a text. -/
lemma after_below (p : Position) (cs : List Char) :
    (p.below a).after cs = (p.after cs).below a := by
  induction cs generalizing p with
  | nil => rfl
  | cons c cs ih =>
    have hafter : ∀ q : Position, q.after (c :: cs) = (q.next c).after cs := fun _ => rfl
    rw [hafter, hafter, next_below, ih]

/-- The start of the line below a text. -/
lemma after_line : origin.after (a.toList ++ ['\n']) = origin.below a := by
  have hoffset : (origin.after (a.toList ++ ['\n'])).offset = (origin.below a).offset := by
    rw [Scanner.offset_after_origin, byteLength_append, byteLength_toList, below, origin]
    exact (Nat.zero_add _).symm
  have hline : (origin.after (a.toList ++ ['\n'])).line = (origin.below a).line := by
    rw [line_after_origin, List.count_append, List.count_singleton_self, UInt32.ofNat_add,
      below, origin, UInt32.add_comm]
    rfl
  have hcolumn : (origin.after (a.toList ++ ['\n'])).column = (origin.below a).column := by
    rw [after_concat]
    rfl
  -- positions are equal if their three numbers are
  cases h : origin.after (a.toList ++ ['\n'])
  rw [h] at hoffset hline hcolumn
  cases hoffset
  cases hline
  cases hcolumn
  rfl

end Position

/-- Below a text a line is counted on, if its number fits in 32 bits. -/
lemma Span.line_below {s : Span} {a : String}
    (h : s.line.toNat + (a.toList.count '\n' + 1) < 2 ^ 32) :
    (s.below a).line.toNat = s.line.toNat + (a.toList.count '\n' + 1) := by
  have hmore : (UInt32.ofNat (a.toList.count '\n' + 1)).toNat = a.toList.count '\n' + 1 :=
    UInt32.toNat_ofNat_of_lt' (Nat.lt_of_le_of_lt (Nat.le_add_left _ _) h)
  rw [Span.below, UInt32.toNat_add, hmore]
  exact Nat.mod_eq_of_lt h

/-- The lines of two texts of together less than `2 ^ 32 - 2` bytes have numbers that fit. -/
lemma Span.PlacedIn.line_lt {a b : String} {s : Span} (h : s.PlacedIn b)
    (hsize : a.utf8ByteSize + b.utf8ByteSize < 2 ^ 32 - 2) :
    s.line.toNat + (a.toList.count '\n' + 1) < 2 ^ 32 := by
  have hbefore := lineFeedsBefore_le b s.start
  have hline := h.toNat_line (by omega)
  have hcount : a.toList.count '\n' ≤ a.utf8ByteSize := by
    have hall : charsBefore (byteLength a.toList) a.toList = a.toList := by
      simpa using charsBefore_byteLength a.toList []
    have hle := lineFeedsBefore_le a (byteLength a.toList)
    rwa [lineFeedsBefore, hall] at hle
  omega

/-! ## Steps of a moved scanner -/

namespace Scanner

/-- What a step finds, below a text and a line feed. -/
def foundBelow (a : String) : Except LexError Token → Except LexError Token
  | .ok t => .ok (t.below a)
  | .error e => .error (e.below a)

/-- A scanner that has a text and a line feed more behind it. -/
def below (a : String) (s : Scanner) : Scanner := { s with pos := s.pos.below a }

variable (a : String)

/-- A scanner that was moved skips the same blanks. -/
lemma skipBlanks_below (s : Scanner) : (s.below a).skipBlanks = s.skipBlanks.below a := by
  unfold skipBlanks skip below
  rw [Position.after_below]

/-- A step of a scanner that was moved finds the same, moved. -/
lemma next_below (s : Scanner) :
    (s.below a).next = (foundBelow a s.next.1, s.next.2.below a) := by
  have hrest : (s.below a).skipBlanks.rest = s.skipBlanks.rest := by
    rw [skipBlanks_below]
    rfl
  have hpos : (s.below a).skipBlanks.pos = s.skipBlanks.pos.below a := by
    rw [skipBlanks_below]
    rfl
  cases hs : s.skipBlanks.rest with
  | nil =>
    have hend : s.atEnd = true := by rw [atEnd, hs]; rfl
    have hend' : (s.below a).atEnd = true := by rw [atEnd, hrest, hs]; rfl
    have hafter : (s.below a).pos.after (s.below a).rest = (s.pos.after s.rest).below a :=
      Position.after_below a s.pos s.rest
    rw [(next_of_atEnd hend).1, (next_of_atEnd hend').1, hafter]
    rfl
  | cons c cs =>
    rw [hs] at hrest
    cases hread : (readToken c cs).outcome with
    | ok kind =>
      rw [next_of_ok hrest hread, next_of_ok hs hread, hpos, Position.after_below,
        Position.spanTo_below]
      rfl
    | error fault =>
      rw [next_of_error hrest hread, next_of_error hs hread, hpos, Position.after_below,
        Position.spanTo_below]
      rfl

/-- **The steps of a moved scanner** are the same, moved. -/
lemma steps_below (s : Scanner) : (s.below a).steps = s.steps.map (foundBelow a) := by
  have hend (s : Scanner) : (s.below a).atEnd = s.atEnd := by
    rw [atEnd, skipBlanks_below]
    rfl
  fun_induction steps s with
  | case1 s h => rw [steps.eq_def (s.below a), hend, if_pos h, next_below, List.map_singleton]
  | case2 s h ih => rw [steps.eq_def (s.below a), hend, if_neg h, next_below, ih, List.map_cons]

end Scanner

/-! ## A line feed ends what stands before it -/

/-- What is skipped at the end of a text is skipped before a line feed too. -/
lemma Trivia.line {gap rest : List Char} (h : Trivia rest gap) (ds : List Char) :
    Trivia (rest ++ '\n' :: ds) gap := by
  induction h with
  | nil => exact .nil
  | blank hc _ ih => exact .blank hc ih
  | @comment body gap hbody hend _ ih =>
    refine .comment hbody ?_ ih
    -- a comment at the end of the text now ends at the line feed
    rw [← List.append_assoc]
    cases hnext : gap ++ rest with
    | nil => simp
    | cons c cs =>
      rw [hnext] at hend
      exact hend

/-- Blanks and comments in front of a line feed, the line feed, and what is skipped behind it. -/
lemma Trivia.append_line {gap gap' rest : List Char} (h : Trivia [] gap) (h' : Trivia rest gap') :
    Trivia rest (gap ++ '\n' :: gap') := by
  induction h with
  | nil => exact .blank (by simp) h'
  | blank hc _ ih => exact .blank hc ih
  | @comment body gap hbody hend _ ih =>
    rw [List.cons_append, List.cons_append, List.append_assoc]
    refine .comment hbody ?_ ih
    cases gap with
    | nil => simp
    | cons c gap => exact hend

/-- Where a token starts, it does so whatever follows the line. -/
lemma StartsToken.line {rest : List Char} (h : StartsToken rest) (hne : rest ≠ [])
    (ds : List Char) : StartsToken (rest ++ '\n' :: ds) := by
  obtain ⟨c, cs, rfl⟩ := List.exists_cons_of_ne_nil hne
  refine ⟨h.solid, fun hahead => ?_⟩
  cases cs with
  | nil => simp [List.cons_prefix_cons] at hahead
  | cons d cs =>
    apply h.uncommented
    simpa [List.cons_prefix_cons] using hahead

/-- A line feed ends what does not pass it. -/
lemma takeWhile_line {test : Char → Bool} (h : test '\n' = false) (cs ds : List Char) :
    (cs ++ '\n' :: ds).takeWhile test = cs.takeWhile test := by
  induction cs with
  | nil => simp [h]
  | cons c cs ih => simp only [List.cons_append, List.takeWhile_cons, ih]

/-- A line feed ends a fraction. -/
lemma readFraction_line (cs ds : List Char) :
    readFraction (cs ++ '\n' :: ds) = readFraction cs := by
  have hdigit : Char.isDigit '\n' = false := by decide
  cases cs with
  | nil => rfl
  | cons c cs =>
    by_cases hc : c = '.'
    · subst hc
      cases cs with
      | nil => simp [readFraction, hdigit]
      | cons d cs => simp only [List.cons_append, readFraction, takeWhile_line hdigit]
    · have hnone : ∀ es, readFraction (c :: es) = [] := by
        intro es
        unfold readFraction
        split
        · next heq => exact absurd (List.cons.inj heq).1 hc
        · rfl
      rw [List.cons_append, hnone, hnone]

/-- A line feed ends a word. -/
lemma readWord_line (c : Char) (cs ds : List Char) :
    readWord c (cs ++ '\n' :: ds) = readWord c cs := by
  unfold readWord
  rw [takeWhile_line (by decide)]

/-- A line feed ends a number. -/
lemma readNumber_line (c : Char) (cs ds : List Char) :
    readNumber c (cs ++ '\n' :: ds) = readNumber c cs := by
  have hle : (cs.takeWhile Char.isDigit).length ≤ cs.length :=
    (List.takeWhile_sublist _).length_le
  simp only [readNumber, takeWhile_line (by decide : Char.isDigit '\n' = false),
    List.drop_append_of_le_length hle, readFraction_line]

/-- A string ends at its closing quote, whatever follows. -/
lemma readString_append {cs : List Char} {kind : TokenKind}
    (h : (readString cs).outcome = .ok kind) (ds : List Char) :
    readString (cs ++ ds) = readString cs := by
  cases hread : readStringBody cs with
  | mk result length =>
    cases result with
    | error fault => simp [readString, hread, Except.map] at h
    | ok value =>
      obtain ⟨body, htake, htext⟩ := readStringBody_text hread
      have hcs : cs = body ++ '"' :: cs.drop length := by
        rw [← List.singleton_append, ← List.append_assoc, ← htake, List.take_append_drop]
      have hsame : readStringBody (cs ++ ds) = readStringBody cs := by
        rw [hcs, List.append_assoc, List.cons_append, readStringBody_of_text htext,
          readStringBody_of_text htext]
      rw [readString, hsame, readString]

/-- A character literal that closes does so whatever follows. -/
lemma closeChar_append {value : Char} {length : Nat} {cs : List Char} {kind : TokenKind}
    (h : (closeChar value length cs).outcome = .ok kind) (ds : List Char) :
    closeChar value length (cs ++ ds) = closeChar value length cs := by
  cases cs with
  | nil => simp [closeChar] at h
  | cons c cs => rfl

/-- A character ends at its closing quote, whatever follows. -/
lemma readChar_append {cs : List Char} {kind : TokenKind}
    (h : (readChar cs).outcome = .ok kind) (ds : List Char) :
    readChar (cs ++ ds) = readChar cs := by
  revert h
  fun_cases readChar cs with
  | case1 | case2 | case3 | case4 | case6 => simp
  | case5 c cs value hescape =>
    intro h
    rw [List.cons_append, List.cons_append, readChar, hescape]
    exact closeChar_append h ds
  | case7 c cs hquote hline hlast hescape =>
    intro h
    have hbackslash := ne_backslash hlast hescape
    rw [List.cons_append, readChar]
    · exact closeChar_append h ds
    · exact fun hc => hquote hc
    · exact fun hc => hline hc
    · exact fun hc _ => hbackslash hc
    · exact fun d ds hc _ => hbackslash hc

/-- A line feed ends a mark. -/
lemma readPunct_line (c : Char) (cs ds : List Char) :
    readPunct c (cs ++ '\n' :: ds) = readPunct c cs := by
  cases cs with
  | nil =>
    have hsame : punctOf? c (some '\n') = punctOf? c none := by
      simp [punctOf?]
    simp only [readPunct, List.nil_append, List.head?_cons, List.head?_nil, hsame]
  | cons d cs => rfl

/-- **A token is the same if a line feed follows the text.** -/
lemma readToken_line {c : Char} {cs : List Char} {kind : TokenKind}
    (h : (readToken c cs).outcome = .ok kind) (ds : List Char) :
    readToken c (cs ++ '\n' :: ds) = readToken c cs := by
  unfold readToken at h ⊢
  split_ifs at h ⊢ with hword hdigit hquote hchar
  · exact readWord_line c cs ds
  · exact readNumber_line c cs ds
  · exact readString_append h _
  · exact readChar_append h _
  · exact readPunct_line c cs ds

/-! ## Steps over two texts -/

namespace Scanner

variable {a file : String} {before : List Char} {s : Scanner}

/-- The scanner, with a line feed and more text behind the text that it reads. -/
def followed (s : Scanner) (ds : List Char) : Scanner := { s with rest := s.rest ++ '\n' :: ds }

/-- Where a scanner stands when all blanks and comments are behind it. -/
lemma skipBlanks_eq {gap rest : List Char} (hrest : s.rest = gap ++ rest)
    (hgap : Trivia rest gap) (hstart : StartsToken rest) :
    s.skipBlanks = ⟨s.file, s.pos.after gap, rest⟩ := by
  unfold skipBlanks skip
  rw [hrest, blankLength_eq_of_trivia hgap hstart, List.take_left, List.drop_left]

/-- Before the end of its text a scanner skips the same, whatever follows. -/
lemma skipBlanks_followed (h : s.skipBlanks.rest ≠ []) (ds : List Char) :
    (s.followed ds).skipBlanks = s.skipBlanks.followed ds := by
  have hrest : (s.followed ds).rest =
      s.rest.take (blankLength false s.rest) ++ (s.skipBlanks.rest ++ '\n' :: ds) := by
    rw [← List.append_assoc, skipBlanks, skip_rest, List.take_append_drop]
    rfl
  exact skipBlanks_eq hrest ((trivia_blankLength s.rest).line ds)
    ((startsToken_drop_blankLength false s.rest).line h ds)

/-- A step over a token is the same, whatever follows the text. -/
lemma next_followed {t : Token} (hend : s.atEnd = false) (ht : s.next.1 = .ok t)
    (ds : List Char) :
    (s.followed ds).atEnd = false ∧
      (s.followed ds).next = (.ok t, s.next.2.followed ds) := by
  cases hs : s.skipBlanks.rest with
  | nil => simp [atEnd, hs] at hend
  | cons c cs =>
    have hskip := skipBlanks_followed (s := s) (by simp [hs]) ds
    have hs' : (s.followed ds).skipBlanks.rest = c :: (cs ++ '\n' :: ds) := by
      rw [hskip, followed, hs]
      rfl
    refine ⟨by rw [atEnd, hs']; rfl, ?_⟩
    cases hread : (readToken c cs).outcome with
    | error fault => simp [next_of_error hs hread] at ht
    | ok kind =>
      have hsame := readToken_line hread ds
      have hread' : (readToken c (cs ++ '\n' :: ds)).outcome = .ok kind := by rw [hsame, hread]
      have hle := readToken_length_le c cs
      rw [next_of_ok hs hread] at ht ⊢
      rw [next_of_ok hs' hread', hsame, List.take_append_of_le_length hle,
        List.drop_append_of_le_length hle, hskip, ← ht]
      rfl

/-- A step depends on what stands ahead of all blanks and comments, and so do all steps. -/
lemma steps_congr {u : Scanner} (h : s.skipBlanks = u.skipBlanks) : s.steps = u.steps := by
  have hnext : s.next = u.next := by
    unfold next
    rw [h]
  rw [steps.eq_def s, steps.eq_def u, hnext, atEnd, atEnd, h]

/-- At the end of its text a scanner goes on behind the line feed. -/
lemma steps_followed_of_atEnd (hend : s.atEnd = true) (ds : List Char) :
    (s.followed ds).steps = (⟨s.file, s.pos.after (s.rest ++ ['\n']), ds⟩ : Scanner).steps := by
  have hgap := (next_of_atEnd hend).2.append_line (trivia_blankLength ds)
  have hrest : (s.followed ds).rest =
      (s.rest ++ '\n' :: ds.take (blankLength false ds)) ++ ds.drop (blankLength false ds) := by
    rw [List.append_assoc, List.cons_append, List.take_append_drop]
    rfl
  apply steps_congr
  rw [skipBlanks_eq hrest hgap (startsToken_drop_blankLength false ds), skipBlanks, skip,
    ← Position.after_append, List.append_assoc, List.singleton_append]
  rfl

/-- **The steps over two texts** are the tokens of the first one, without its end, and then the
steps over the second one, moved.

**Proof sketch.** Induction along the steps over the first text.  Each of them is the same with the
second text behind it (`next_followed`); at the end of the first text the scanner goes on behind the
line feed, at the start of the line below. -/
lemma Reads.steps_line (hreads : Reads a file before s) {tokens : List Token}
    (h : s.steps.mapM id = .ok tokens) (b : String) :
    (s.followed b.toList).steps =
      tokens.dropLast.map .ok ++ ((ofText b file).below a).steps := by
  fun_induction steps s generalizing before tokens with
  | case1 s hend =>
    obtain ⟨t, ts, -, hts, rfl⟩ := mapM_cons_eq_ok.1 h
    obtain rfl : [] = ts := Except.ok.inj hts
    have hpos : s.pos.after (s.rest ++ ['\n']) = Position.origin.below a := by
      rw [hreads.pos_eq, ← Position.after_append, ← List.append_assoc, ← hreads.text_eq,
        Position.after_line]
    rw [steps_followed_of_atEnd hend, hpos, hreads.file_eq]
    rfl
  | case2 s hend ih =>
    obtain ⟨t, ts, ht, hts, rfl⟩ := mapM_cons_eq_ok.1 h
    obtain ⟨body, last, hlast, -⟩ := steps_eq_ok hts
    obtain ⟨before', hreads'⟩ := hreads.next.1
    obtain ⟨hend', hnext⟩ := next_followed (Bool.eq_false_iff.2 hend) ht b.toList
    rw [steps.eq_def, hend', if_neg Bool.false_ne_true, hnext, ih hreads' hts,
      List.dropLast_cons_of_ne_nil (by simp [hlast])]
    rfl

/-! ## Outcomes of steps -/

/-- Tokens in front of results in a row. -/
lemma mapM_ok_append (ts : List Token) (rs : List (Except LexError Token)) :
    (ts.map Except.ok ++ rs).mapM id = (rs.mapM id).map (ts ++ ·) := by
  induction ts with
  | nil => cases h : rs.mapM id <;> simp [h, Except.map]
  | cons t ts ih =>
    rw [List.map_cons, List.cons_append, List.mapM_cons, ih]
    cases rs.mapM id <;> rfl

/-- Results that are moved: the tokens, or the first fault, are moved. -/
lemma mapM_foundBelow (a : String) (rs : List (Except LexError Token)) :
    (∀ ts, rs.mapM id = .ok ts →
      (rs.map (foundBelow a)).mapM id = .ok (ts.map (Token.below a))) ∧
    ∀ e, rs.mapM id = .error e → (rs.map (foundBelow a)).mapM id = .error (e.below a) := by
  induction rs with
  | nil =>
    constructor
    · intro ts h
      obtain rfl : [] = ts := Except.ok.inj h
      rfl
    · intro e h
      cases h
  | cons r rs ih =>
    obtain ⟨hok, herror⟩ := ih
    constructor
    · intro ts h
      obtain ⟨t, us, rfl, hus, rfl⟩ := mapM_cons_eq_ok.1 h
      exact mapM_cons_eq_ok.2 ⟨_, _, rfl, hok us hus, rfl⟩
    · intro e h
      rcases mapM_cons_eq_error.1 h with rfl | ⟨t, rfl, hrs⟩
      · exact mapM_cons_eq_error.2 (.inl rfl)
      · exact mapM_cons_eq_error.2 (.inr ⟨_, rfl, herror e hrs⟩)

end Scanner

/-- **Two texts, one below the other**, are read like each of them by itself.  If the first one is
all tokens, the tokens of both are the tokens of the first, without its end, and then those of the
second, each of them moved by the bytes and the lines of the first, in the same column; and if the
second one has a fault, the same fault is found there, moved in the same way.  Lines are numbers of
32 bits.  They add up wherever the sum is one, and this is so for all lines of texts of together
less than `2 ^ 32 - 2` bytes.

**Proof sketch.** The steps over both texts are the tokens of the first and then the steps over the
second, moved (`Reads.steps_line`, `steps_below`). -/
theorem scan_lines {a b file : String} {ta : List Token} {last : Token}
    (ha : scan a file = .ok (ta ++ [last])) :
    last.kind = .endOfFile ∧
    (∀ tb, scan b file = .ok tb →
      scan (a ++ "\n" ++ b) file = .ok (ta ++ tb.map (Token.below a))) ∧
    (∀ e, scan b file = .error e → scan (a ++ "\n" ++ b) file = .error (e.below a)) ∧
    (∀ tb, scan b file = .ok tb → ∀ t ∈ tb,
      t.span.line.toNat + (a.toList.count '\n' + 1) < 2 ^ 32 ∨
          a.utf8ByteSize + b.utf8ByteSize < 2 ^ 32 - 2 →
        (t.below a).span.line.toNat = t.span.line.toNat + (a.toList.count '\n' + 1)) ∧
    ∀ e, scan b file = .error e →
      e.span.line.toNat + (a.toList.count '\n' + 1) < 2 ^ 32 ∨
          a.utf8ByteSize + b.utf8ByteSize < 2 ^ 32 - 2 →
        (e.below a).span.line.toNat = e.span.line.toNat + (a.toList.count '\n' + 1) := by
  have hjoined : Scanner.ofText (a ++ "\n" ++ b) file =
      (Scanner.ofText a file).followed b.toList := by
    simp [Scanner.ofText, Scanner.followed]
  have hscan : scan (a ++ "\n" ++ b) file =
      (((Scanner.ofText b file).steps.map (Scanner.foundBelow a)).mapM id).map (ta ++ ·) := by
    rw [scan, hjoined, (Scanner.reads_ofText a file).steps_line ha b, List.dropLast_concat,
      Scanner.steps_below, Scanner.mapM_ok_append]
  obtain ⟨hok, herror⟩ := Scanner.mapM_foundBelow a (Scanner.ofText b file).steps
  have hline {s : Span} (hs : s.PlacedIn b)
      (h : s.line.toNat + (a.toList.count '\n' + 1) < 2 ^ 32 ∨
        a.utf8ByteSize + b.utf8ByteSize < 2 ^ 32 - 2) :
      (s.below a).line.toNat = s.line.toNat + (a.toList.count '\n' + 1) :=
    Span.line_below (h.elim id hs.line_lt)
  refine ⟨?_, fun tb hb => ?_, fun e hb => ?_, fun tb hb t ht => hline (scan_placed hb t ht).2,
    fun e hb => hline (scan_fault_placed hb).2⟩
  · obtain ⟨body, last', htokens, hlast, -⟩ := scan_kinds ha
    obtain ⟨-, rfl⟩ := List.append_singleton_inj.1 htokens
    exact hlast
  · rw [hscan, hok tb hb]
    rfl
  · rw [hscan, herror e hb]
    rfl

/-- A text that ends inside a comment, in front of a string that goes over two lines, and in front
of a character that does not close. -/
theorem scan_lines_openComment :
    ∃ ta last, scan "x =// é" "a.idyl" = .ok (ta ++ [last]) ∧ last.kind = .endOfFile ∧
      (∃ tb, scan "7.\"\n\";" "a.idyl" = .ok tb ∧
        scan ("x =// é" ++ "\n" ++ "7.\"\n\";") "a.idyl" =
          .ok (ta ++ tb.map (Token.below "x =// é"))) ∧
      ∃ e, scan "; 'ab" "a.idyl" = .error e ∧
        scan ("x =// é" ++ "\n" ++ "; 'ab") "a.idyl" = .error (e.below "x =// é") := by
  have hfirst : (scan "x =// é" "a.idyl").isOk = true := by decide +kernel
  have hsecond : (scan "7.\"\n\";" "a.idyl").isOk = true := by decide +kernel
  have hfault : (scan "; 'ab" "a.idyl").isOk = false := by decide +kernel
  cases ha : scan "x =// é" "a.idyl" with
  | error e => simp [ha, Except.isOk, Except.toBool] at hfirst
  | ok tokens =>
    obtain ⟨ta, last, rfl, -⟩ := scan_kinds ha
    cases hb : scan "7.\"\n\";" "a.idyl" with
    | error e => simp [hb, Except.isOk, Except.toBool] at hsecond
    | ok tb =>
      cases hc : scan "; 'ab" "a.idyl" with
      | ok tc => simp [hc, Except.isOk, Except.toBool] at hfault
      | error e =>
        obtain ⟨hlast, hjoined, -⟩ := scan_lines (b := "7.\"\n\";") ha
        exact ⟨ta, last, rfl, hlast, ⟨tb, rfl, hjoined tb hb⟩, e, rfl,
          (scan_lines ha).2.2.1 e hc⟩

/-- Below `n` line feeds and one more, the end of an empty text stands on a line that has no number,
if there are as many lines as 32 bits give numbers. -/
lemma line_below_lineFeeds {n : Nat} (hn : n + 2 = 2 ^ 32) (file : String) :
    scan (lineFeeds n) file = .ok [endOfLineFeeds n file] ∧
    scan "" file = .ok [endOfLineFeeds 0 file] ∧
    scan (lineFeeds n ++ "\n" ++ "") file = .ok [endOfLineFeeds (n + 1) file] ∧
    (endOfLineFeeds (n + 1) file).span.line = 0 ∧
    (endOfLineFeeds 0 file).span.line.toNat + ((lineFeeds n).toList.count '\n' + 1) = 2 ^ 32 := by
  refine ⟨scan_lineFeeds n file, scan_lineFeeds 0 file, ?_, ?_, ?_⟩
  · rw [lineFeeds_append, scan_lineFeeds]
  · show UInt32.ofNat (n + 2) = 0
    rw [hn]
    rfl
  · rw [toList_lineFeeds, List.count_replicate_self, ← hn, Nat.add_comm]
    rfl

/-- Below `2 ^ 32 - 2` line feeds and one more, the end of an empty text stands on line zero, where
one more than all these lines would be right. -/
theorem scan_lines_overflow :
    ∃ last end₁ end₂,
      (lineFeeds (2 ^ 32 - 2)).utf8ByteSize + "".utf8ByteSize < 2 ^ 32 ∧
      scan (lineFeeds (2 ^ 32 - 2)) "a.idyl" = .ok [last] ∧ scan "" "a.idyl" = .ok [end₁] ∧
      scan (lineFeeds (2 ^ 32 - 2) ++ "\n" ++ "") "a.idyl" = .ok [end₂] ∧ end₂.span.line = 0 ∧
      end₁.span.line.toNat + ((lineFeeds (2 ^ 32 - 2)).toList.count '\n' + 1) = 2 ^ 32 := by
  have hsize : (lineFeeds (2 ^ 32 - 2)).utf8ByteSize + "".utf8ByteSize < 2 ^ 32 := by
    rw [utf8ByteSize_lineFeeds]
    decide
  exact ⟨_, _, _, hsize, line_below_lineFeeds (by decide) "a.idyl"⟩

end Idyl
