import Mathlib
import Idyl.Proofs.Token.Steps
import Idyl.Report.Line

/-!
# A scanner walks over all of its text

Whatever text a scanner is given and however often it is asked, behind faults too, the regions it
reports follow each other in the text, each of them holds at least one character, and only blanks
and comments are left out.  When the text is used up, every further step finds the end of the file.

The regions found from one place of the text on tile it up to another place (`Idyl.Tiles`).  One
step puts one more gap and one more region in front of a tiling.

## Main definitions

* `Idyl.Cut`, `Idyl.Occupies`, `Idyl.Gap` — pieces of a text between two of its bytes.
* `Idyl.Tiles` — gaps and regions in turn, from one byte of a text to another.
* `Idyl.Scanner.Reads` — a scanner somewhere in a text.

## Main results

* `Idyl.Scanner.take_tiles` — the regions of any number of steps.
* `Idyl.Scanner.next_bump?` — no step goes beyond the end of the text.
* `Idyl.Scanner.take_tiling` — where tokens and faults lie, and what tokens are known by.
-/

set_option autoImplicit false

namespace Idyl

/-! ## Pieces of a text -/

/-- Between the bytes `start` and `stop` of a text, both at the edge of a character, stands
`piece`, and behind it `rest`. -/
def Cut (text : String) (start stop : Nat) (piece rest : String) : Prop :=
  ∃ before, text = before ++ piece ++ rest ∧ before.utf8ByteSize = start ∧
    start + piece.utf8ByteSize = stop

/-- A piece stands in a text between two of its bytes. -/
def Occupies (text : String) (start stop : Nat) (piece : String) : Prop :=
  ∃ rest, Cut text start stop piece rest

/-- Only blanks and comments stand in a text between two of its bytes. -/
def Gap (text : String) (start stop : Nat) : Prop :=
  ∃ piece rest, Cut text start stop piece rest ∧ Trivia rest.toList piece.toList

/-- A gap does not lead backwards. -/
lemma Gap.le {text : String} {start stop : Nat} (h : Gap text start stop) : start ≤ stop := by
  obtain ⟨piece, rest, ⟨before, -, -, rfl⟩, -⟩ := h
  exact Nat.le_add_right _ _

/-- The bytes of a first character and of the others. -/
lemma byteLength_cons (c : Char) (cs : List Char) :
    byteLength (c :: cs) = c.utf8Size + byteLength cs := rfl

/-- The bytes of two parts. -/
lemma byteLength_append (cs ds : List Char) :
    byteLength (cs ++ ds) = byteLength cs + byteLength ds := by
  induction cs with
  | nil => exact (Nat.zero_add _).symm
  | cons c cs ih => rw [List.cons_append, byteLength_cons, byteLength_cons, ih, Nat.add_assoc]

/-- Every character has a byte. -/
lemma byteLength_pos {cs : List Char} (h : cs ≠ []) : 0 < byteLength cs := by
  cases cs with
  | nil => exact absurd rfl h
  | cons c cs => exact Nat.add_pos_left c.utf8Size_pos _

/-- The size of a text made of characters. -/
lemma utf8ByteSize_ofList (cs : List Char) :
    (String.ofList cs).utf8ByteSize = byteLength cs := by
  induction cs with
  | nil => rfl
  | cons c cs ih =>
    have hcons : String.ofList (c :: cs) = String.singleton c ++ String.ofList cs := by
      rw [String.singleton_eq_ofList, ← String.ofList_append, List.singleton_append]
    rw [hcons, String.utf8ByteSize_append, String.utf8ByteSize_singleton, ih, byteLength_cons]

/-- The bytes of the characters of a text. -/
lemma byteLength_toList (text : String) : byteLength text.toList = text.utf8ByteSize := by
  rw [← utf8ByteSize_ofList, String.ofList_toList]

/-- An offset grows by the bytes that are passed. -/
lemma Position.offset_after (p : Position) (cs : List Char) :
    (p.after cs).offset = p.offset + byteLength cs := by
  induction cs generalizing p with
  | nil => rfl
  | cons c cs ih =>
    have hnext : (p.next c).offset = p.offset + c.utf8Size := by
      rw [Position.next]
      split <;> rfl
    have hafter : p.after (c :: cs) = (p.next c).after cs := rfl
    rw [hafter, ih, hnext, byteLength_cons, Nat.add_assoc]

/-- A piece of the characters is a piece of the text. -/
lemma cut_of_toList {text : String} {before piece rest : List Char}
    (h : text.toList = before ++ (piece ++ rest)) :
    Cut text (byteLength before) (byteLength (before ++ piece)) (String.ofList piece)
      (String.ofList rest) := by
  refine ⟨String.ofList before, ?_, utf8ByteSize_ofList before, ?_⟩
  · rw [← String.ofList_append, ← String.ofList_append, List.append_assoc, ← h,
      String.ofList_toList]
  · rw [utf8ByteSize_ofList, byteLength_append]

/-- Blanks and comments among the characters are a gap in the text. -/
lemma gap_of_toList {text : String} {before gap rest : List Char}
    (h : text.toList = before ++ (gap ++ rest)) (hgap : Trivia rest gap) :
    Gap text (byteLength before) (byteLength (before ++ gap)) :=
  ⟨_, _, cut_of_toList h, by simpa using hgap⟩

/-! ## Tilings -/

/-- The region that a step reports. -/
def region : Except LexError Token → Span
  | .ok t => t.span
  | .error e => e.span

/-- Gaps and regions in turn, from one byte of a text up to another. -/
inductive Tiles (text : String) : Nat → List (Except LexError Token) → Nat → Prop
  | nil (i : Nat) : Tiles text i [] i
  | cons {i j : Nat} {r : Except LexError Token} {rs : List (Except LexError Token)}
      {piece : String} (hgap : Gap text i (region r).start)
      (hlt : (region r).start < (region r).stop)
      (hpiece : Occupies text (region r).start (region r).stop piece)
      (tail : Tiles text (region r).stop rs j) : Tiles text i (r :: rs) j

namespace Tiles

variable {text : String} {i j : Nat} {rs : List (Except LexError Token)}

/-- Every region holds a character, and its ends lie at the edges of characters. -/
lemma pieces (h : Tiles text i rs j) :
    ∀ r ∈ rs, (region r).start < (region r).stop ∧
      ∃ piece, Occupies text (region r).start (region r).stop piece := by
  induction h with
  | nil => simp
  | cons _ hlt hpiece _ ih =>
    rw [List.forall_mem_cons]
    exact ⟨⟨hlt, _, hpiece⟩, ih⟩

/-- No region starts before the tiling does. -/
lemma le_start (h : Tiles text i rs j) : ∀ r ∈ rs, i ≤ (region r).start := by
  induction h with
  | nil => simp
  | cons hgap hlt _ _ ih =>
    rw [List.forall_mem_cons]
    exact ⟨hgap.le, fun r hr => hgap.le.trans (hlt.le.trans (ih r hr))⟩

/-- Regions follow each other. -/
lemma ordered (h : Tiles text i rs j) :
    rs.Pairwise fun r r' => (region r).stop ≤ (region r').start := by
  induction h with
  | nil => exact .nil
  | cons _ _ _ tail ih => exact .cons tail.le_start ih

/-- Before every region there is a gap, from the end of the region before it. -/
lemma gaps (h : Tiles text i rs j) :
    ∀ g ∈ (i :: rs.map fun r => (region r).stop).zip (rs.map fun r => (region r).start),
      Gap text g.1 g.2 := by
  induction h with
  | nil => simp
  | cons hgap _ _ _ ih =>
    rw [List.map_cons, List.map_cons, List.zip_cons_cons, List.forall_mem_cons]
    exact ⟨hgap, ih⟩

/-- A tiling ends where its last region does. -/
lemma eq_getLastD (h : Tiles text i rs j) : j = (rs.map fun r => (region r).stop).getLastD i := by
  induction h with
  | nil => rfl
  | cons _ _ _ _ ih => rw [ih, List.map_cons, List.getLastD_cons]

end Tiles

/-! ## Steps through a text -/

/-! ## Nothing is cut off -/

/-- No more digits and points are taken than there are. -/
lemma readNumber_length_le (c : Char) (cs : List Char) : (readNumber c cs).length ≤ cs.length := by
  have hwhole : (cs.takeWhile Char.isDigit).length ≤ cs.length :=
    (List.takeWhile_sublist _).length_le
  have hfraction := congrArg List.length
    (readFraction_spec (cs.drop (cs.takeWhile Char.isDigit).length)).1
  rw [List.length_take, List.length_drop] at hfraction
  simp only [readNumber]
  omega

/-- No more of a string is taken than there is. -/
lemma readStringBody_length_le (cs : List Char) : (readStringBody cs).2 ≤ cs.length := by
  fun_induction readStringBody cs with
  | case1 | case2 | case3 => simp
  | case4 c cs result length hread ih | case5 c cs _ _ _ result length hread ih =>
    rw [hread] at ih
    simp only [List.length_cons]
    omega

/-- No more of a character literal is taken than there is. -/
lemma readChar_length_le (cs : List Char) : (readChar cs).length ≤ cs.length := by
  have hclose : ∀ (value : Char) (length : Nat) (ds : List Char),
      (closeChar value length ds).length ≤ length + ds.length := by
    intro value length ds
    unfold closeChar
    split
    · simp
    · split <;> simp
  fun_cases readChar cs with
  | case1 | case2 | case3 | case4 | case6 => simp
  | case5 c cs value =>
    have hle := hclose value 2 cs
    simp only [List.length_cons]
    omega
  | case7 c cs =>
    have hle := hclose c 1 cs
    simp only [List.length_cons]
    omega

/-- A mark of two characters is taken only if the second one is there. -/
lemma readPunct_length_le (c : Char) (cs : List Char) : (readPunct c cs).length ≤ cs.length := by
  unfold readPunct
  cases hmark : punctOf? c cs.head? with
  | none => simp
  | some found =>
    obtain ⟨mark, pair⟩ := found
    cases pair with
    | false => simp
    | true =>
      obtain ⟨ds, rfl⟩ := List.head?_eq_some_iff.1 ((text_of_punctOf? hmark).2 rfl)
      simp

/-- No more blanks and comments are skipped than there are. -/
lemma blankLength_le (inComment : Bool) (cs : List Char) :
    blankLength inComment cs ≤ cs.length := by
  fun_induction blankLength inComment cs <;> simp only [List.length_cons, List.length_nil] <;> omega

/-- **No more of a token is taken than there is.** -/
lemma readToken_length_le (c : Char) (cs : List Char) : (readToken c cs).length ≤ cs.length := by
  unfold readToken
  split_ifs
  · exact (List.takeWhile_sublist _).length_le
  · exact readNumber_length_le c cs
  · exact readStringBody_length_le cs
  · exact readChar_length_le cs
  · exact readPunct_length_le c cs

namespace Scanner

/-- A scanner that reads a text and has `before` behind it. -/
structure Reads (text file : String) (before : List Char) (s : Scanner) : Prop where
  file_eq : s.file = file
  text_eq : text.toList = before ++ s.rest
  pos_eq : s.pos = Position.origin.after before

variable {text file : String} {before : List Char} {s : Scanner}

/-- A new scanner reads its text from the start. -/
lemma reads_ofText (text file : String) : Reads text file [] (ofText text file) :=
  ⟨rfl, rfl, rfl⟩

/-- The offset behind some characters. -/
lemma offset_after_origin (cs : List Char) : (Position.origin.after cs).offset = byteLength cs := by
  rw [Position.offset_after]
  exact Nat.zero_add _

/-- Behind the rest of the text is its end. -/
lemma Reads.after_rest (h : Reads text file before s) :
    s.pos.after s.rest = Position.origin.after text.toList := by
  rw [h.pos_eq, ← Position.after_append, h.text_eq]

section Piece

variable {gap piece rest : List Char}

/-- The scanner behind a piece of text reads the same text. -/
lemma Reads.behind (h : Reads text file before s) (hrest : s.rest = gap ++ (piece ++ rest)) :
    Reads text file (before ++ gap ++ piece) ⟨s.file, (s.pos.after gap).after piece, rest⟩ where
  file_eq := h.file_eq
  text_eq := by simp [h.text_eq, hrest]
  pos_eq := by simp [h.pos_eq, Position.after_append]

/-- Where a piece of text behind a gap lies. -/
lemma Reads.spanTo_eq (h : Reads text file before s) (gap piece : List Char) :
    ((s.pos.after gap).spanTo ((s.pos.after gap).after piece)).start = byteLength (before ++ gap) ∧
      ((s.pos.after gap).spanTo ((s.pos.after gap).after piece)).stop =
        byteLength (before ++ gap ++ piece) := by
  rw [h.pos_eq, ← Position.after_append, ← Position.after_append]
  exact ⟨offset_after_origin _, offset_after_origin _⟩

/-- A piece of the rest is a piece of the text. -/
lemma Reads.occupies (h : Reads text file before s) (hrest : s.rest = gap ++ (piece ++ rest)) :
    Occupies text (byteLength (before ++ gap)) (byteLength (before ++ gap ++ piece))
      (String.ofList piece) :=
  ⟨_, cut_of_toList (by rw [h.text_eq, hrest, List.append_assoc])⟩

/-- **One more tile.** A gap and a piece of text behind it are put in front of a tiling. -/
lemma Reads.cons_tiles (h : Reads text file before s) (hrest : s.rest = gap ++ (piece ++ rest))
    (hgap : Trivia (piece ++ rest) gap) (hpiece : piece ≠ []) {r : Except LexError Token}
    (hr : region r = (s.pos.after gap).spanTo ((s.pos.after gap).after piece))
    {rs : List (Except LexError Token)} {j : Nat}
    (htail : Tiles text (byteLength (before ++ gap ++ piece)) rs j) :
    Tiles text (byteLength before) (r :: rs) j := by
  obtain ⟨hstart, hstop⟩ := h.spanTo_eq gap piece
  rw [← hr] at hstart hstop
  have hlt : byteLength (before ++ gap) < byteLength (before ++ gap ++ piece) := by
    rw [byteLength_append _ piece]
    exact Nat.lt_add_of_pos_right (byteLength_pos hpiece)
  rw [← hstart, ← hstop] at hlt
  have hgap' : Gap text (byteLength before) (region r).start := by
    rw [hstart]
    exact gap_of_toList (by rw [h.text_eq, hrest]) hgap
  have hoccupies := h.occupies hrest
  rw [← hstart, ← hstop] at hoccupies
  rw [← hstop] at htail
  exact .cons hgap' hlt hoccupies htail

end Piece

/-- **One step** before the end of the text finds a token or a fault, and puts one more tile in
front of whatever tiles the text behind it. -/
lemma Reads.step_tiles (h : Reads text file before s) (hend : s.atEnd = false) :
    ∃ before', Reads text file before' s.next.2 ∧
      (∀ t, s.next.1 = .ok t → t.kind ≠ .endOfFile) ∧
      ∀ {rs j}, Tiles text (byteLength before') rs j →
        Tiles text (byteLength before) (s.next.1 :: rs) j := by
  have hstep := s.next_step
  generalize s.next.1 = r, s.next.2 = s' at hstep ⊢
  cases hstep with
  | finish hend' => simp [hend] at hend'
  | token _ hrest hgap htext =>
    refine ⟨_, h.behind hrest, ?_, fun htail => h.cons_tiles hrest hgap htext.ne_nil rfl htail⟩
    rintro t ⟨rfl⟩
    exact htext.ne_endOfFile
  | fault _ hrest hgap htext =>
    exact ⟨_, h.behind hrest, by simp, fun htail => h.cons_tiles hrest hgap htext rfl htail⟩

/-! ## What tokens are known by -/

/-- A token that is no string and no character is known by the text that it was read from, and
this is its fixed spelling if it has one. -/
def KnownByText (text : String) (t : Token) : Prop :=
  (∀ value, t.kind ≠ .string value) → (∀ value, t.kind ≠ .char value) →
    Occupies text t.span.start t.span.stop t.lexeme ∧
      ∀ spelling, t.kind.fixedText? = some spelling → t.lexeme = spelling

/-- What is no string and no character is known by its text. -/
lemma lexeme_eq_ofList {kind : TokenKind} (hstring : ∀ value, kind ≠ .string value)
    (hchar : ∀ value, kind ≠ .char value) (piece : List Char) :
    lexeme kind piece = String.ofList piece := by
  unfold lexeme
  split
  · exact absurd rfl (hstring _)
  · exact absurd rfl (hchar _)
  · rfl

/-- Wherever a step ends, the scanner reads the same text, and a token that was found is known by
its text. -/
lemma Reads.next (h : Reads text file before s) :
    (∃ before', Reads text file before' s.next.2) ∧
      ∀ t, s.next.1 = .ok t → KnownByText text t := by
  have hstep := s.next_step
  generalize s.next.1 = r, s.next.2 = s' at hstep ⊢
  cases hstep with
  | finish =>
    refine ⟨⟨text.toList, h.file_eq, by simp, h.after_rest⟩, ?_⟩
    rintro t ⟨rfl⟩ - -
    have hoffset : text.utf8ByteSize = (s.pos.after s.rest).offset := by
      rw [h.after_rest, offset_after_origin, byteLength_toList]
    exact ⟨⟨"", text, by simp [endAt], hoffset, rfl⟩, by simp [endAt, TokenKind.fixedText?]⟩
  | token _ hrest _ htext =>
    refine ⟨⟨_, h.behind hrest⟩, ?_⟩
    rintro t ⟨rfl⟩ hstring hchar
    have hoccupies := h.occupies hrest
    rw [← (h.spanTo_eq _ _).1, ← (h.spanTo_eq _ _).2] at hoccupies
    dsimp only
    rw [lexeme_eq_ofList hstring hchar]
    exact ⟨hoccupies, fun spelling hfixed => htext.eq_fixedText hfixed⟩
  | fault _ hrest => exact ⟨⟨_, h.behind hrest⟩, by simp⟩

/-- Every token that is found in any number of steps is known by its text. -/
lemma knownByText_of_mem_take (n : Nat) (h : Reads text file before s) {t : Token}
    (ht : .ok t ∈ take n s) : KnownByText text t := by
  induction n generalizing before s with
  | zero => simp [take] at ht
  | succ n ih =>
    obtain ⟨⟨before', hreads⟩, hknown⟩ := h.next
    rcases List.mem_cons.1 ht with ht | ht
    · exact hknown t ht.symm
    · exact ih hreads ht

/-! ## Any number of steps -/

/-- At the end of a text every step finds the end of the file. -/
lemma take_atEnd (n : Nat) (file : String) (p : Position) :
    take n ⟨file, p, []⟩ = List.replicate n (.ok (endAt file p)) := by
  induction n with
  | zero => rfl
  | succ n ih =>
    have hnext : next ⟨file, p, []⟩ = (.ok (endAt file p), ⟨file, p, []⟩) := rfl
    rw [take, hnext, ih, List.replicate_succ]

/-- **The regions of any number of steps** tile the text from where the scanner stands.  There are
no more of them than characters ahead; if there are less than steps, only a gap is left, and all
other steps find the end of the file.

**Proof sketch.** Induction on the number of steps.  At the end of the text there is no region.
Before it a step puts one more tile in front of those of the other steps, and takes at least one
character. -/
lemma take_tiles (n : Nat) (h : Reads text file before s) :
    ∃ found j,
      take n s = found ++ List.replicate (n - found.length)
        (.ok (endAt file (Position.origin.after text.toList))) ∧
      (∀ t, .ok t ∈ found → t.kind ≠ .endOfFile) ∧ found.length ≤ s.rest.length ∧
      Tiles text (byteLength before) found j ∧
      (found.length < n → Gap text j text.utf8ByteSize) := by
  induction n generalizing before s with
  | zero => exact ⟨[], _, rfl, by simp, by simp, .nil _, by simp⟩
  | succ n ih =>
    rw [take]
    cases hend : s.atEnd with
    | true =>
      obtain ⟨hnext, hgap⟩ := next_of_atEnd hend
      refine ⟨[], _, ?_, by simp, by simp, .nil _, fun _ => ?_⟩
      · rw [hnext, take_atEnd, h.file_eq, h.after_rest]
        rfl
      · have hcut : text.toList = before ++ (s.rest ++ []) := by rw [h.text_eq, List.append_nil]
        rw [← byteLength_toList, h.text_eq]
        exact gap_of_toList hcut hgap
    | false =>
      obtain ⟨before', hreads, hkind, htiles⟩ := h.step_tiles hend
      obtain ⟨found, j, htake, hkinds, hlength, htail, hlast⟩ := ih hreads
      have hlt := next_rest_length_lt (Bool.eq_false_iff.1 hend)
      refine ⟨s.next.1 :: found, j, ?_, ?_, ?_, htiles htail, fun hn => hlast ?_⟩
      · rw [htake, List.length_cons, Nat.add_sub_add_right, List.cons_append]
      · intro t ht
        rcases List.mem_cons.1 ht with ht | ht
        · exact hkind t ht.symm
        · exact hkinds t ht
      · rw [List.length_cons]
        omega
      · rw [List.length_cons] at hn
        omega

/-- The scanner after some characters, if there are that many. -/
def bump? (s : Scanner) (n : Nat) : Option Scanner :=
  if n ≤ s.rest.length then some (s.skip n) else none

/-- **A step stays within the text.**  Neither the blanks that it skips nor the token or fault
behind them have more characters than there are, so nothing is cut off at the end of the text. -/
lemma next_bump? (s : Scanner) :
    s.bump? (blankLength false s.rest) = some s.skipBlanks ∧
    ∀ c cs, s.skipBlanks.rest = c :: cs →
      s.skipBlanks.bump? ((readToken c cs).length + 1) = some s.next.2 := by
  refine ⟨if_pos (blankLength_le false s.rest), fun c cs hs => ?_⟩
  have hle : (readToken c cs).length + 1 ≤ s.skipBlanks.rest.length := by
    rw [hs]
    exact Nat.succ_le_succ (readToken_length_le c cs)
  rw [bump?, if_pos hle, next, hs]
  cases hread : (readToken c cs).outcome <;> simp only [hread]

/-- **A scanner tiles its text, across faults too.** However often a scanner is asked, it first
reports regions and then the same end of the file, at the end of the text, again and again.
There are no more regions than characters.  Each of them holds a character and is cut between
characters; they follow each other, and only blanks and comments stand before the first of them,
between one and the next and, once the end of the file was found, behind the last.  A token that is
no string and no character is known by the text of its region, which is its fixed spelling if it
has one.

**Proof sketch.** The regions tile the text (`take_tiles`), which says all about their places; and
every step finds a token that is known by its text (`knownByText_of_mem_take`). -/
theorem take_tiling (text file : String) :
    ∃ last : Token, last.kind = .endOfFile ∧ last.span.start = text.utf8ByteSize ∧
      last.span.stop = text.utf8ByteSize ∧
      ∀ n, ∃ found,
        take n (ofText text file) = found ++ List.replicate (n - found.length) (.ok last) ∧
        (∀ t, .ok t ∈ found → t.kind ≠ .endOfFile) ∧ found.length ≤ text.length ∧
        (∀ r ∈ found, (region r).start < (region r).stop ∧
          ∃ piece, Occupies text (region r).start (region r).stop piece) ∧
        (found.Pairwise fun r r' => (region r).stop ≤ (region r').start) ∧
        (∀ g ∈ (0 :: found.map fun r => (region r).stop).zip (found.map fun r => (region r).start),
          Gap text g.1 g.2) ∧
        (found.length < n →
          Gap text ((found.map fun r => (region r).stop).getLastD 0) text.utf8ByteSize) ∧
        ∀ t, .ok t ∈ take n (ofText text file) → KnownByText text t := by
  have hoffset : (Position.origin.after text.toList).offset = text.utf8ByteSize := by
    rw [offset_after_origin, byteLength_toList]
  refine ⟨endAt file (Position.origin.after text.toList), rfl, hoffset, hoffset, fun n => ?_⟩
  have hreads := reads_ofText text file
  obtain ⟨found, j, htake, hkinds, hlength, htiles, hlast⟩ := take_tiles n hreads
  have hzero : byteLength [] = 0 := rfl
  rw [hzero] at htiles
  refine ⟨found, htake, hkinds, hlength, htiles.pieces, htiles.ordered, htiles.gaps, fun hn => ?_,
    fun t => knownByText_of_mem_take n hreads⟩
  rw [← htiles.eq_getLastD]
  exact hlast hn

/-- A text with a stray character of three bytes, a character literal that does not close, and a
comment at its end. -/
def strayText : String := "日 = 'ab // z"

/-- Behind the last region of a text with faults only a comment is left. -/
theorem take_tiling_stray :
    ∃ found last, found.length < 13 ∧
      take 13 (ofText strayText "a.idyl") =
        found ++ List.replicate (13 - found.length) (.ok last) ∧
      Gap strayText ((found.map fun r => (region r).stop).getLastD 0) strayText.utf8ByteSize := by
  obtain ⟨last, -, -, -, htake⟩ := take_tiling strayText "a.idyl"
  obtain ⟨found, hfound, -, hlength, -, -, -, hlast, -⟩ := htake 13
  have hlt : found.length < 13 := lt_of_le_of_lt hlength (by decide)
  exact ⟨found, last, hlt, hfound, hlast hlt⟩

end Scanner

end Idyl
