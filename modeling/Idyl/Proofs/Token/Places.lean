import Mathlib
import Idyl.Proofs.Token.Tiling

/-!
# Places in a text

A span gives the bytes of a piece of text, and the line and column at which it starts.  It is a
place in a text if what it says is true of the text: it starts and stops between characters, and
line and column are what a reader counts from the start of the text.

All spans are made by a scanner that counts along, and merged afterwards.  So it is enough that the
spans of all steps are places, and that places merge into places.

## Main definitions

* `Idyl.lineFeedsBefore`, `Idyl.columnsBefore` — what a reader counts up to a byte of a text.
* `Idyl.Span.PlacedIn` — spans that are places in a text.

## Main results

* `Idyl.Span.PlacedIn.merge` — places merge into places.
* `Idyl.Span.PlacedIn.exact` — lines and columns of texts that are not too long for them.
* `Idyl.scan_placed`, `Idyl.scan_fault_placed` — tokens and faults lie at places of their text.
-/

set_option autoImplicit false

namespace Idyl

/-! ## Lines and columns -/

/-- The characters that start before a byte. -/
def charsBefore : Nat → List Char → List Char
  | _, [] => []
  | offset, c :: cs => if offset = 0 then [] else c :: charsBefore (offset - c.utf8Size) cs

/-- The number of line feeds before a byte of a text. -/
def lineFeedsBefore (text : String) (offset : Nat) : Nat :=
  (charsBefore offset text.toList).count '\n'

/-- The number of characters before a byte of a text, back to the last line feed before it or, if
there is none, to the start of the text. -/
def columnsBefore (text : String) (offset : Nat) : Nat :=
  ((charsBefore offset text.toList).reverse.takeWhile (· ≠ '\n')).length

/-- The characters in front of the edge of a character. -/
lemma charsBefore_byteLength (before rest : List Char) :
    charsBefore (byteLength before) (before ++ rest) = before := by
  induction before with
  | nil => cases rest <;> rfl
  | cons c cs ih =>
    have hpos : byteLength (c :: cs) ≠ 0 := (byteLength_pos (List.cons_ne_nil c cs)).ne'
    rw [List.cons_append, charsBefore, if_neg hpos, byteLength_cons, Nat.add_sub_cancel_left, ih]

/-- There are no more characters before a byte than bytes in the text. -/
lemma length_charsBefore_le (offset : Nat) (cs : List Char) :
    (charsBefore offset cs).length ≤ byteLength cs := by
  induction cs generalizing offset with
  | nil => exact Nat.le_refl _
  | cons c cs ih =>
    rw [charsBefore]
    split
    · exact Nat.zero_le _
    · have hc := c.utf8Size_pos
      have htail := ih (offset - c.utf8Size)
      rw [List.length_cons, byteLength_cons]
      omega

/-- There are no more lines than bytes. -/
lemma lineFeedsBefore_le (text : String) (offset : Nat) :
    lineFeedsBefore text offset ≤ text.utf8ByteSize := by
  rw [← byteLength_toList]
  exact List.count_le_length.trans (length_charsBefore_le offset text.toList)

/-- There are no more columns than bytes. -/
lemma columnsBefore_le (text : String) (offset : Nat) :
    columnsBefore text offset ≤ text.utf8ByteSize := by
  rw [← byteLength_toList]
  refine le_trans ?_ (length_charsBefore_le offset text.toList)
  rw [← (charsBefore offset text.toList).length_reverse]
  exact (List.takeWhile_sublist _).length_le

namespace Position

/-- One more character further on. -/
lemma after_concat (p : Position) (cs : List Char) (c : Char) :
    p.after (cs ++ [c]) = (p.after cs).next c := after_append p cs [c]

/-- Lines are counted by line feeds. -/
lemma line_after_origin (cs : List Char) :
    (origin.after cs).line = UInt32.ofNat (cs.count '\n' + 1) := by
  induction cs using List.reverseRecOn with
  | nil => rfl
  | append_singleton cs c ih =>
    rw [after_concat, next, List.count_append]
    split
    · next hc =>
      subst hc
      rw [List.count_singleton_self, UInt32.ofNat_add, ← ih]
      rfl
    · next hc => rw [List.count_singleton, if_neg (by simpa using hc), Nat.add_zero, ih]

/-- Columns are counted by characters, from the last line feed on. -/
lemma column_after_origin (cs : List Char) :
    (origin.after cs).column =
      UInt32.ofNat ((cs.reverse.takeWhile (· ≠ '\n')).length + 1) := by
  induction cs using List.reverseRecOn with
  | nil => rfl
  | append_singleton cs c ih =>
    rw [after_concat, next, List.reverse_append, List.reverse_singleton, List.singleton_append,
      List.takeWhile_cons]
    split
    · next hc =>
      subst hc
      rfl
    · next hc =>
      rw [if_pos (by simpa using hc), List.length_cons, UInt32.ofNat_add, ← ih]
      rfl

end Position

/-! ## Places -/

namespace Span

/-- A span that is a place in a text: it starts and stops at the edges of characters, and its line
and column are those of its start.  Lines and columns are numbers of 32 bits. -/
structure PlacedIn (text : String) (s : Span) : Prop where
  start_le : s.start ≤ s.stop
  stop_le : s.stop ≤ text.utf8ByteSize
  start_edge : String.Pos.Raw.IsValid text ⟨s.start⟩
  stop_edge : String.Pos.Raw.IsValid text ⟨s.stop⟩
  line_eq : s.line = UInt32.ofNat (lineFeedsBefore text s.start + 1)
  column_eq : s.column = UInt32.ofNat (columnsBefore text s.start + 1)

namespace PlacedIn

variable {text : String} {s t : Span}

/-- Places merge into places. -/
lemma merge (hs : s.PlacedIn text) (ht : t.PlacedIn text) : (s.merge t).PlacedIn text := by
  have hstop : (s.merge t).stop = s.stop ∨ (s.merge t).stop = t.stop := max_choice _ _
  have hle : s.stop ≤ (s.merge t).stop := le_max_left _ _
  have hstop_le : (s.merge t).stop ≤ text.utf8ByteSize := max_le hs.stop_le ht.stop_le
  have hstop_edge : String.Pos.Raw.IsValid text ⟨(s.merge t).stop⟩ := by
    rcases hstop with hstop | hstop <;> rw [hstop]
    · exact hs.stop_edge
    · exact ht.stop_edge
  -- a merged span is placed where the earlier of the two is
  have hfirst : ∃ u : Span, u.PlacedIn text ∧ (s.merge t).start = u.start ∧ u.start ≤ s.start ∧
      (s.merge t).line = u.line ∧ (s.merge t).column = u.column := by
    unfold Span.merge
    by_cases hlt : t.start < s.start
    · exact ⟨t, ht, min_eq_right hlt.le, hlt.le, by simp [hlt], by simp [hlt]⟩
    · exact ⟨s, hs, min_eq_left (not_lt.1 hlt), le_rfl, by simp [hlt], by simp [hlt]⟩
  obtain ⟨u, hu, hstart, hustart, hline, hcolumn⟩ := hfirst
  refine ⟨?_, hstop_le, ?_, hstop_edge, ?_, ?_⟩
  · rw [hstart]
    exact hustart.trans (hs.start_le.trans hle)
  · rw [hstart]
    exact hu.start_edge
  · rw [hstart, hline]
    exact hu.line_eq
  · rw [hstart, hcolumn]
    exact hu.column_eq

/-- The line of a place is exact, if it is a number of 32 bits. -/
lemma toNat_line (hs : s.PlacedIn text) (h : lineFeedsBefore text s.start + 1 < 2 ^ 32) :
    s.line.toNat = lineFeedsBefore text s.start + 1 := by
  rw [hs.line_eq]
  exact UInt32.toNat_ofNat_of_lt' h

/-- The column of a place is exact, if it is a number of 32 bits. -/
lemma toNat_column (hs : s.PlacedIn text) (h : columnsBefore text s.start + 1 < 2 ^ 32) :
    s.column.toNat = columnsBefore text s.start + 1 := by
  rw [hs.column_eq]
  exact UInt32.toNat_ofNat_of_lt' h

/-- In a text of less than `2 ^ 32 - 1` bytes all lines and columns are exact. -/
lemma exact (hs : s.PlacedIn text) (hsize : text.utf8ByteSize < 2 ^ 32 - 1) :
    s.line.toNat = lineFeedsBefore text s.start + 1 ∧
      s.column.toNat = columnsBefore text s.start + 1 := by
  have hlines := lineFeedsBefore_le text s.start
  have hcolumns := columnsBefore_le text s.start
  exact ⟨hs.toNat_line (by omega), hs.toNat_column (by omega)⟩

end PlacedIn

end Span

/-- Between two characters there is an edge. -/
lemma edge_of_toList {text : String} {before rest : List Char} (h : text.toList = before ++ rest) :
    String.Pos.Raw.IsValid text ⟨byteLength before⟩ := by
  rw [String.Pos.Raw.isValid_iff_exists_append]
  refine ⟨String.ofList before, String.ofList rest, ?_, ?_⟩
  · rw [← String.ofList_append, ← h, String.ofList_toList]
  · rw [← utf8ByteSize_ofList]
    rfl

/-- A piece of a text lies at a place. -/
lemma placedIn_of_toList {text : String} {before piece rest : List Char}
    (h : text.toList = before ++ (piece ++ rest)) :
    ((Position.origin.after before).spanTo
      ((Position.origin.after before).after piece)).PlacedIn text := by
  have hstart : (Position.origin.after before).offset = byteLength before :=
    Scanner.offset_after_origin before
  have hstop : ((Position.origin.after before).after piece).offset =
      byteLength (before ++ piece) := by
    rw [← Position.after_append]
    exact Scanner.offset_after_origin (before ++ piece)
  have hbefore : charsBefore (byteLength before) text.toList = before := by
    rw [h]
    exact charsBefore_byteLength before (piece ++ rest)
  unfold Position.spanTo
  rw [hstart, hstop]
  refine ⟨?_, ?_, edge_of_toList h, ?_, ?_, ?_⟩
  · rw [byteLength_append]
    exact Nat.le_add_right _ _
  · rw [← byteLength_toList, h, ← List.append_assoc, byteLength_append _ rest]
    exact Nat.le_add_right _ _
  · exact edge_of_toList (by rw [h, List.append_assoc])
  · rw [lineFeedsBefore, hbefore]
    exact Position.line_after_origin before
  · rw [columnsBefore, hbefore]
    exact Position.column_after_origin before

/-! ## Tokens and faults -/

namespace Scanner

/-- What a step finds carries the name of the file, and a place in its text. -/
def Placed (text file : String) : Except LexError Token → Prop
  | .ok t => t.file = file ∧ t.span.PlacedIn text
  | .error e => e.file = file ∧ e.span.PlacedIn text

variable {text file : String} {before : List Char} {s : Scanner}

/-- **One step** finds something at a place, and the scanner goes on in the same text. -/
lemma Reads.next_placed (h : Reads text file before s) :
    Placed text file s.next.1 ∧ ∃ before', Reads text file before' s.next.2 := by
  refine ⟨?_, h.next.1⟩
  have hplaced : ∀ {gap piece rest : List Char}, s.rest = gap ++ (piece ++ rest) →
      ((s.pos.after gap).spanTo ((s.pos.after gap).after piece)).PlacedIn text := by
    intro gap piece rest hrest
    rw [h.pos_eq, ← Position.after_append]
    apply placedIn_of_toList
    rw [h.text_eq, hrest, List.append_assoc]
  have hstep := s.next_step
  generalize s.next.1 = r, s.next.2 = s' at hstep ⊢
  cases hstep with
  | finish => exact ⟨h.file_eq, @hplaced s.rest [] [] (by simp)⟩
  | token _ hrest => exact ⟨h.file_eq, hplaced hrest⟩
  | fault _ hrest => exact ⟨h.file_eq, hplaced hrest⟩

/-- **All steps** find something at a place. -/
lemma Reads.steps_placed (h : Reads text file before s) : ∀ r ∈ s.steps, Placed text file r := by
  fun_induction steps s generalizing before with
  | case1 s hend =>
    intro r hr
    obtain rfl := List.mem_singleton.1 hr
    exact h.next_placed.1
  | case2 s hend ih =>
    obtain ⟨hplaced, before', hreads⟩ := h.next_placed
    rw [List.forall_mem_cons]
    exact ⟨hplaced, ih hreads⟩

/-- Results in a row are all tokens, or a fault among them is the outcome. -/
lemma mem_of_mapM (rs : List (Except LexError Token)) :
    (∀ tokens, rs.mapM id = .ok tokens → ∀ t ∈ tokens, .ok t ∈ rs) ∧
      ∀ e, rs.mapM id = .error e → .error e ∈ rs := by
  induction rs with
  | nil => simp [pure, Except.pure]
  | cons r rs ih =>
    constructor
    · intro tokens htokens t ht
      obtain ⟨u, us, rfl, hus, rfl⟩ := mapM_cons_eq_ok.1 htokens
      rcases List.mem_cons.1 ht with rfl | ht
      · exact List.mem_cons_self
      · exact List.mem_cons_of_mem _ (ih.1 us hus t ht)
    · intro e he
      rcases mapM_cons_eq_error.1 he with rfl | ⟨t, -, hrs⟩
      · exact List.mem_cons_self
      · exact List.mem_cons_of_mem _ (ih.2 e hrs)

end Scanner

/-- **Tokens lie at places of their text**, and carry the name of their file. -/
lemma scan_placed {text file : String} {tokens : List Token} (h : scan text file = .ok tokens) :
    ∀ t ∈ tokens, t.file = file ∧ t.span.PlacedIn text := by
  intro t ht
  have hmem := (Scanner.mem_of_mapM _).1 tokens h t ht
  exact (Scanner.reads_ofText text file).steps_placed _ hmem

/-- **A piece of text that is no token lies at a place of the text.** -/
lemma scan_fault_placed {text file : String} {e : LexError} (h : scan text file = .error e) :
    e.file = file ∧ e.span.PlacedIn text :=
  (Scanner.reads_ofText text file).steps_placed _ ((Scanner.mem_of_mapM _).2 e h)

end Idyl
