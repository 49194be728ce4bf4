import Mathlib
import Idyl.Proofs.Token.LineFeeds

/-!
# Line indices count lines and columns

Whatever offset a line index is asked for, it gives the line and column that a reader counts: the
line feeds before the offset, and the characters back to the last of them.

The starts of all lines are split at the offset: the characters that start before it hold the line
feeds of all starts up to the offset, and the characters behind it those of all others.  Binary
search finds this split, so the line is the number of line feeds before the offset, and it starts
behind the last of them.

Lines and columns are counted from one, and numbered in 32 bits.  So one is added at the end, and
this goes wrong for a single number, `2 ^ 32`, which first occurs in a text of `2 ^ 32 - 1` bytes.

## Main definitions

* `Idyl.LineIndex.Numbered` — offsets whose line and column are numbers of 32 bits.

## Main results

* `Idyl.search_holds` — binary search.
* `Idyl.slice?_eq_some_iff` — the characters of a byte range.
* `Idyl.LineIndex.locate?_ofText` — line and column of any offset.
* `Idyl.LineIndex.location_counted` — lines and columns are counted, and grow with the offset.
* `Idyl.LineIndex.location_overflow` — the first line that has no number.
-/

set_option autoImplicit false

namespace Idyl

/-! ## Binary search -/

/-- What a rank says about a number among others: it stands at an index, or exactly those in front
of an index are smaller and none is equal. -/
def Rank.Holds (xs : Array Nat) (x : Nat) : Rank → Prop
  | found i => xs[i]? = some x
  | missing i => i ≤ xs.size ∧ ∀ j y, xs[j]? = some y → (j < i → y < x) ∧ (i ≤ j → x < y)

/-- In an increasing array later entries are larger. -/
lemma lt_of_getElem? {xs : Array Nat} (hsorted : xs.toList.Pairwise (· < ·)) {i j x y : Nat}
    (hx : xs[i]? = some x) (hy : xs[j]? = some y) (hij : i < j) : x < y := by
  rw [← Array.getElem?_toList] at hx hy
  obtain ⟨hi, rfl⟩ := List.getElem?_eq_some_iff.1 hx
  obtain ⟨hj, rfl⟩ := List.getElem?_eq_some_iff.1 hy
  exact List.pairwise_iff_getElem.1 hsorted i j hi hj hij

/-- **Binary search.** If all numbers in front of a range are smaller and all behind it are larger,
the search in this range finds the number or its place. -/
lemma searchWithin_holds {xs : Array Nat} (hsorted : xs.toList.Pairwise (· < ·)) {x lo hi : Nat}
    (hhi : hi ≤ xs.size) (hlo : lo ≤ hi)
    (houter : ∀ j y, xs[j]? = some y → (j < lo → y < x) ∧ (hi ≤ j → x < y)) :
    (searchWithin xs x lo hi hhi).Holds xs x := by
  fun_induction searchWithin xs x lo hi hhi with
  | case1 lo hi hhi _ mid hmid hfound =>
    exact hfound ▸ Array.getElem?_eq_getElem hmid
  | case2 lo hi hhi _ mid hmid _ hless ih =>
    refine ih (by omega) fun j y hy => ⟨fun hj => ?_, (houter j y hy).2⟩
    have hget : xs[mid]? = some xs[mid] := Array.getElem?_eq_getElem hmid
    rcases Nat.lt_or_ge j mid with hjm | hjm
    · exact (lt_of_getElem? hsorted hy hget hjm).trans hless
    · obtain rfl : j = mid := by omega
      rw [hget] at hy
      exact Option.some.inj hy ▸ hless
  | case3 lo hi hhi _ mid hmid hne hless ih =>
    refine ih (by omega) fun j y hy => ⟨(houter j y hy).1, fun hj => ?_⟩
    have hget : xs[mid]? = some xs[mid] := Array.getElem?_eq_getElem hmid
    have hgt : x < xs[mid] := by omega
    rcases Nat.lt_or_ge mid j with hjm | hjm
    · exact hgt.trans (lt_of_getElem? hsorted hget hy hjm)
    · obtain rfl : j = mid := by omega
      rw [hget] at hy
      exact Option.some.inj hy ▸ hgt
  | case4 lo hi hhi hstop =>
    obtain rfl : lo = hi := by omega
    exact ⟨hhi, houter⟩

/-- The search tells the rank of a number. -/
lemma search_holds {xs : Array Nat} (hsorted : xs.toList.Pairwise (· < ·)) (x : Nat) :
    (search xs x).Holds xs x := by
  refine searchWithin_holds hsorted _ (Nat.zero_le _) fun j y hy => ⟨by simp, fun hj => ?_⟩
  rw [Array.getElem?_eq_none hj] at hy
  cases hy

/-! ## Slices -/

/-- A list of characters is split where the bytes are reached exactly. -/
lemma splitBytes?_eq_some_iff {n : Nat} {cs before rest : List Char} :
    splitBytes? n cs = some (before, rest) ↔ cs = before ++ rest ∧ byteLength before = n := by
  constructor
  · intro h
    fun_induction splitBytes? n cs generalizing before with
    | case1 cs =>
      obtain ⟨rfl, rfl⟩ := Prod.mk.inj (Option.some.inj h)
      exact ⟨rfl, rfl⟩
    | case2 => cases h
    | case3 n c cs hc ih =>
      obtain ⟨⟨before', rest'⟩, hsplit, hparts⟩ := Option.map_eq_some_iff.1 h
      obtain ⟨rfl, rfl⟩ : c :: before' = before ∧ rest' = rest := Prod.mk.inj hparts
      obtain ⟨rfl, hlength⟩ := ih hsplit
      refine ⟨rfl, ?_⟩
      rw [byteLength_cons]
      omega
    | case4 => cases h
  · rintro ⟨rfl, rfl⟩
    induction before with
    | nil => simp [byteLength, splitBytes?]
    | cons c before ih =>
      have hpos := c.utf8Size_pos
      obtain ⟨n, hn⟩ : ∃ n, byteLength (c :: before) = n + 1 :=
        Nat.exists_eq_succ_of_ne_zero (byteLength_pos (List.cons_ne_nil c before)).ne'
      have hsum : c.utf8Size + byteLength before = n + 1 := hn
      have hrest : n + 1 - c.utf8Size = byteLength before := by omega
      rw [List.cons_append, hn, splitBytes?, if_pos (by omega), hrest, ih]
      rfl

/-- **The characters of a byte range** stand in the text between its ends. -/
lemma slice?_eq_some_iff {text : String} {start stop : Nat} {piece : List Char} :
    slice? text start stop = some piece ↔
      ∃ before rest, text.toList = before ++ (piece ++ rest) ∧ byteLength before = start ∧
        start + byteLength piece = stop := by
  unfold slice?
  constructor
  · intro h
    split at h
    · next hle =>
      obtain ⟨⟨before, tail⟩, hstart, htail⟩ := Option.bind_eq_some_iff.1 h
      obtain ⟨⟨found, rest⟩, hstop, hfound⟩ := Option.map_eq_some_iff.1 htail
      obtain rfl : found = piece := hfound
      obtain ⟨htext, hbefore⟩ := splitBytes?_eq_some_iff.1 hstart
      obtain ⟨rfl, hlength⟩ := splitBytes?_eq_some_iff.1 hstop
      exact ⟨before, rest, htext, hbefore, by omega⟩
    · cases h
  · rintro ⟨before, rest, htext, hstart, rfl⟩
    rw [if_pos (Nat.le_add_right _ _), splitBytes?_eq_some_iff.2 ⟨htext, hstart⟩, Option.bind_some,
      Nat.add_sub_cancel_left, splitBytes?_eq_some_iff.2 ⟨rfl, rfl⟩]
    rfl

/-! ## Characters before an offset -/

/-- Characters lie before an offset or behind it; only if none is left behind it, those before it
may end in front of it. -/
lemma charsBefore_append (offset : Nat) (cs : List Char) :
    ∃ rest, cs = charsBefore offset cs ++ rest ∧
      (rest = [] ∨ offset ≤ byteLength (charsBefore offset cs)) := by
  induction cs generalizing offset with
  | nil => exact ⟨[], rfl, .inl rfl⟩
  | cons c cs ih =>
    rw [charsBefore]
    split
    · next hzero => exact ⟨c :: cs, rfl, .inr (by omega)⟩
    · obtain ⟨rest, hrest, hend⟩ := ih (offset - c.utf8Size)
      refine ⟨rest, congrArg (c :: ·) hrest, hend.imp_right fun hle => ?_⟩
      rw [byteLength_cons]
      omega

/-- An offset between two characters is where the characters before it end. -/
lemma exists_append_of_isValid {text : String} {offset : Nat}
    (h : String.Pos.Raw.IsValid text ⟨offset⟩) :
    ∃ rest, text.toList = charsBefore offset text.toList ++ rest ∧
      byteLength (charsBefore offset text.toList) = offset := by
  obtain ⟨before, rest, rfl, hoffset⟩ := String.Pos.Raw.isValid_iff_exists_append.1 h
  have hlength : byteLength before.toList = offset := by
    rw [byteLength_toList]
    exact (congrArg String.Pos.Raw.byteIdx hoffset).symm
  have hbefore : charsBefore offset (before ++ rest).toList = before.toList := by
    rw [String.toList_append, ← hlength]
    exact charsBefore_byteLength _ _
  exact ⟨rest.toList, by rw [hbefore, String.toList_append], by rw [hbefore, hlength]⟩

namespace LineIndex

/-! ## Starts of lines -/

/-- The lines of two texts, the second one behind the first. -/
lemma startsFrom_append (offset : Nat) (cs ds : List Char) :
    startsFrom offset (cs ++ ds) =
      startsFrom offset cs ++ startsFrom (offset + byteLength cs) ds := by
  induction cs generalizing offset with
  | nil => rfl
  | cons c cs ih =>
    rw [List.cons_append, startsFrom, startsFrom, byteLength_cons, ← Nat.add_assoc]
    split
    · next hc =>
      subst hc
      rw [ih]
      rfl
    · rw [ih]

/-- Lines start behind where the text starts. -/
lemma lt_of_mem_startsFrom {offset s : Nat} {cs : List Char} (h : s ∈ startsFrom offset cs) :
    offset < s := by
  fun_induction startsFrom offset cs with
  | case1 => cases h
  | case2 offset cs ih =>
    rcases List.mem_cons.1 h with rfl | h
    · exact Nat.lt_succ_self offset
    · exact (Nat.lt_succ_self offset).trans (ih h)
  | case3 offset c cs hc ih => exact (Nat.le_add_right _ _).trans_lt (ih h)

/-- Lines start one behind the other. -/
lemma pairwise_startsFrom (offset : Nat) (cs : List Char) :
    (startsFrom offset cs).Pairwise (· < ·) := by
  fun_induction startsFrom offset cs with
  | case1 => exact .nil
  | case2 offset cs ih => exact .cons (fun s hs => lt_of_mem_startsFrom hs) ih
  | case3 offset c cs hc ih => exact ih

/-- There is a line for every line feed. -/
lemma length_startsFrom (offset : Nat) (cs : List Char) :
    (startsFrom offset cs).length = cs.count '\n' := by
  fun_induction startsFrom offset cs with
  | case1 => rfl
  | case2 offset cs ih => rw [List.length_cons, ih, List.count_cons_self]
  | case3 offset c cs hc ih => rw [ih, List.count_cons_of_ne hc]

/-- A line feed before an offset starts a line at or before it. -/
lemma le_of_mem_startsFrom_charsBefore {start offset s : Nat} {cs : List Char}
    (h : s ∈ startsFrom start (charsBefore offset cs)) : s ≤ start + offset := by
  induction cs generalizing start offset with
  | nil => cases h
  | cons c cs ih =>
    rw [charsBefore] at h
    split at h
    · cases h
    · next hpos =>
      rw [startsFrom] at h
      split at h
      · next hc =>
        subst hc
        rcases List.mem_cons.1 h with rfl | h
        · omega
        · have hs := ih h
          have hsize : '\n'.utf8Size = 1 := rfl
          omega
      · have hs := ih h
        rcases Nat.lt_or_ge offset c.utf8Size with hlt | hge
        · -- the offset falls inside this character, so no other one starts before it
          rw [Nat.sub_eq_zero_of_le hlt.le] at h
          cases cs <;> simp [charsBefore, startsFrom] at h
        · omega

/-- The last line of some characters starts behind their last line feed. -/
lemma getLast_startsFrom (cs : List Char) :
    (0 :: startsFrom 0 cs).getLast (List.cons_ne_nil _ _) =
      byteLength (cs.rdropWhile (· ≠ '\n')) := by
  induction cs using List.reverseRecOn with
  | nil => rfl
  | append_singleton cs c ih =>
    rw [List.rdropWhile_concat]
    by_cases hc : c = '\n'
    · subst hc
      have hsize : byteLength ['\n'] = 1 := rfl
      simp [startsFrom_append, startsFrom, byteLength_append, hsize]
    · simpa [startsFrom_append, startsFrom, hc] using ih

/-! ## Lines and columns -/

variable (text : String) (offset : Nat)

/-- The starts of lines are split at an offset. -/
lemma starts_ofText :
    ∃ behind, (ofText text).starts.toList =
        (0 :: startsFrom 0 (charsBefore offset text.toList)) ++ behind ∧
      (∀ s ∈ 0 :: startsFrom 0 (charsBefore offset text.toList), s ≤ offset) ∧
      ∀ s ∈ behind, offset < s := by
  obtain ⟨rest, hrest, hend⟩ := charsBefore_append offset text.toList
  refine ⟨startsFrom (byteLength (charsBefore offset text.toList)) rest, ?_, ?_, ?_⟩
  · have happend := startsFrom_append 0 (charsBefore offset text.toList) rest
    rw [← hrest, Nat.zero_add] at happend
    rw [ofText, happend]
    rfl
  · intro s hs
    rcases List.mem_cons.1 hs with rfl | hs
    · exact Nat.zero_le offset
    · simpa using le_of_mem_startsFrom_charsBefore hs
  · intro s hs
    rcases hend with rfl | hle
    · cases hs
    · exact hle.trans_lt (lt_of_mem_startsFrom hs)

/-- The starts of the lines of a text increase. -/
lemma pairwise_starts : (ofText text).starts.toList.Pairwise (· < ·) :=
  .cons (fun _ hs => lt_of_mem_startsFrom hs) (pairwise_startsFrom 0 text.toList)

/-- Among increasing starts of lines, the line of an offset is the last one at or before it. -/
lemma line?_of_append {index : LineIndex} {offset line : Nat} {before behind : List Nat}
    (hsorted : index.starts.toList.Pairwise (· < ·))
    (hsplit : index.starts.toList = before ++ behind) (hline : before.length = line + 1)
    (hbefore : ∀ s ∈ before, s ≤ offset) (hbehind : ∀ s ∈ behind, offset < s) :
    index.line? offset = some line := by
  have hget : ∀ j : Nat, index.starts[j]? = (before ++ behind)[j]? := by
    intro j
    rw [← hsplit, Array.getElem?_toList]
  have hle : ∀ {j s : Nat}, index.starts[j]? = some s → (s ≤ offset ↔ j ≤ line) := by
    intro j s hs
    rw [hget] at hs
    rcases Nat.lt_or_ge j before.length with hj | hj
    · rw [List.getElem?_append_left hj] at hs
      have hmem := hbefore s (List.mem_of_getElem? hs)
      omega
    · rw [List.getElem?_append_right hj] at hs
      have hmem := hbehind s (List.mem_of_getElem? hs)
      omega
  obtain ⟨start, hstart⟩ : ∃ start, index.starts[line]? = some start := by
    rw [hget, List.getElem?_append_left (by omega)]
    exact ⟨_, List.getElem?_eq_getElem (by omega)⟩
  have hstart_le : start ≤ offset := (hle hstart).2 le_rfl
  have hrank := search_holds hsorted offset
  unfold line?
  cases hsearch : search index.starts offset with
  | found i =>
    rw [hsearch] at hrank
    have hi : i ≤ line := (hle hrank).1 le_rfl
    have hnot : ¬i < line := fun hlt => (lt_of_getElem? hsorted hrank hstart hlt).not_ge hstart_le
    obtain rfl : i = line := by omega
    rfl
  | missing i =>
    rw [hsearch] at hrank
    obtain ⟨hsize, hcut⟩ := hrank
    have hi : ¬i ≤ line := fun hi => ((hcut line start hstart).2 hi).not_ge hstart_le
    have hnot : ¬line + 1 < i := by
      intro hlt
      have hnext : index.starts[line + 1]? = some index.starts[line + 1] :=
        Array.getElem?_eq_getElem (by omega)
      have hless := (hcut _ _ hnext).1 hlt
      have hline := (hle hnext).1 hless.le
      omega
    obtain rfl : i = line + 1 := by omega
    rfl

/-- **The line of an offset** is the number of line feeds before it. -/
lemma line?_ofText : (ofText text).line? offset = some (lineFeedsBefore text offset) := by
  obtain ⟨behind, hsplit, hbefore, hbehind⟩ := starts_ofText text offset
  refine line?_of_append (pairwise_starts text) hsplit ?_ hbefore hbehind
  rw [List.length_cons, length_startsFrom]
  rfl

/-- The line of an offset starts behind the last line feed before it. -/
lemma getElem?_starts :
    (ofText text).starts[lineFeedsBefore text offset]? =
      some (byteLength ((charsBefore offset text.toList).rdropWhile (· ≠ '\n'))) := by
  obtain ⟨behind, hsplit, -, -⟩ := starts_ofText text offset
  have hlast : (0 :: startsFrom 0 (charsBefore offset text.toList))[lineFeedsBefore text offset]? =
      some (byteLength ((charsBefore offset text.toList).rdropWhile (· ≠ '\n'))) := by
    rw [lineFeedsBefore, ← length_startsFrom 0, ← getLast_startsFrom, List.getLast_eq_getElem]
    exact List.getElem?_eq_getElem _
  obtain ⟨hlt, -⟩ := List.getElem?_eq_some_iff.1 hlast
  rw [← Array.getElem?_toList, hsplit, List.getElem?_append_left hlt, hlast]

/-- **Columns.** Between two characters the column is what a reader counts; elsewhere it is the
first. -/
lemma column_eq :
    (slice? text (byteLength ((charsBefore offset text.toList).rdropWhile (· ≠ '\n'))) offset).elim
        0 List.length =
      if String.Pos.Raw.IsValid text ⟨offset⟩ then columnsBefore text offset else 0 := by
  split
  · next hvalid =>
    obtain ⟨rest, htext, hoffset⟩ := exists_append_of_isValid hvalid
    set before := charsBefore offset text.toList with hbefore
    have hsplit : before.rdropWhile (· ≠ '\n') ++ before.rtakeWhile (· ≠ '\n') = before :=
      List.rdropWhile_append_rtakeWhile
    have hslice : slice? text (byteLength (before.rdropWhile (· ≠ '\n'))) offset =
        some (before.rtakeWhile (· ≠ '\n')) := by
      refine slice?_eq_some_iff.2 ⟨_, rest, ?_, rfl, ?_⟩
      · rw [← List.append_assoc, hsplit, htext]
      · rw [← byteLength_append, hsplit, hoffset]
    rw [hslice, columnsBefore, ← hbefore]
    simp [List.rtakeWhile]
  · next hvalid =>
    cases hslice : slice? text _ offset with
    | none => rfl
    | some piece =>
      obtain ⟨before, rest, htext, hstart, hstop⟩ := slice?_eq_some_iff.1 hslice
      refine absurd ?_ hvalid
      rw [← hstop, ← hstart, ← byteLength_append]
      exact edge_of_toList (by rw [htext, List.append_assoc])

/-- **The location of any offset**, before one is added to what was counted. -/
lemma locate?_ofText (overflow : Overflow) :
    (ofText text).locate? overflow text offset =
      (overflow.succ? (UInt32.ofNat (lineFeedsBefore text offset))).bind fun line =>
        (overflow.succ? (UInt32.ofNat (if String.Pos.Raw.IsValid text ⟨offset⟩ then
          columnsBefore text offset else 0))).bind fun column => some (line, column) := by
  rw [← column_eq, locate?, line?_ofText]
  show ((ofText text).starts[lineFeedsBefore text offset]?.bind _) = _
  rw [getElem?_starts, Option.bind_some]
  rfl

/-- The location of any offset, where numbers that do not fit go on from zero. -/
lemma location?_ofText :
    (ofText text).location? text offset =
      some (UInt32.ofNat (lineFeedsBefore text offset + 1),
        UInt32.ofNat ((if String.Pos.Raw.IsValid text ⟨offset⟩ then columnsBefore text offset
          else 0) + 1)) := by
  rw [location?, locate?_ofText, UInt32.ofNat_add, UInt32.ofNat_add]
  rfl

/-- Every byte range has a span. -/
lemma span?_ofText (start stop : Nat) :
    (ofText text).span? text start stop = some (spanOf text start stop) := by
  rw [spanOf, span?, location?_ofText, Option.map_some, Option.getD_some]

variable {text}

/-- **Stepping and looking up agree.** A place in a text carries the line and column that the index
of the text gives for its start. -/
lemma location?_of_placedIn {s : Span} (h : s.PlacedIn text) :
    (ofText text).location? text s.start = some (s.line, s.column) := by
  rw [location?_ofText, if_pos h.start_edge, h.line_eq, h.column_eq]

/-! ## Growing offsets -/

/-- **A later offset has a later line, or the same line and a later column.** -/
lemma counts_lt {i j : Nat} (hi : String.Pos.Raw.IsValid text ⟨i⟩)
    (hj : String.Pos.Raw.IsValid text ⟨j⟩) (hij : i < j) :
    lineFeedsBefore text i < lineFeedsBefore text j ∨
      lineFeedsBefore text i = lineFeedsBefore text j ∧
        columnsBefore text i < columnsBefore text j := by
  obtain ⟨rest, htext, hbefore⟩ := exists_append_of_isValid hi
  obtain ⟨rest', htext', hbefore'⟩ := exists_append_of_isValid hj
  unfold lineFeedsBefore columnsBefore
  generalize charsBefore i text.toList = before at *
  generalize charsBefore j text.toList = before' at *
  -- the characters before the later offset go on behind those before the earlier one
  obtain ⟨more, rfl⟩ : before <+: before' := by
    have hahead : before <+: text.toList := ⟨rest, htext.symm⟩
    have hahead' : before' <+: text.toList := ⟨rest', htext'.symm⟩
    refine (List.prefix_or_prefix_of_prefix hahead hahead').resolve_right ?_
    rintro ⟨more, rfl⟩
    rw [byteLength_append] at hbefore
    omega
  have hmore : more ≠ [] := by
    rintro rfl
    rw [List.append_nil] at hbefore'
    omega
  rw [List.count_append]
  by_cases hfeed : '\n' ∈ more
  · left
    have := List.count_pos_iff.2 hfeed
    omega
  · right
    have hall : ∀ c ∈ more.reverse, decide (c ≠ '\n') = true := by
      intro c hc
      refine decide_eq_true ?_
      rintro rfl
      exact hfeed (List.mem_reverse.1 hc)
    rw [List.count_eq_zero_of_not_mem hfeed, List.reverse_append,
      List.takeWhile_append_of_pos hall, List.length_append, List.length_reverse]
    exact ⟨rfl, Nat.lt_add_of_pos_left (List.length_pos_iff.2 hmore)⟩

/-- Different numbers that are counted from one differ in 32 bits, `2 ^ 32` included. -/
lemma ofNat_succ_inj {m n : Nat} (hm : m < 2 ^ 32) (hn : n < 2 ^ 32)
    (h : UInt32.ofNat (m + 1) = UInt32.ofNat (n + 1)) : m = n := by
  have hmod := congrArg UInt32.toNat h
  rw [UInt32.toNat_ofNat', UInt32.toNat_ofNat'] at hmod
  omega

/-- No two places between characters share their line and column. -/
lemma location?_ne (hsize : text.utf8ByteSize < 2 ^ 32) {i j : Nat}
    (hi : String.Pos.Raw.IsValid text ⟨i⟩) (hj : String.Pos.Raw.IsValid text ⟨j⟩) (hij : i < j) :
    (ofText text).location? text i ≠ (ofText text).location? text j := by
  rw [location?_ofText, location?_ofText, if_pos hi, if_pos hj]
  intro heq
  obtain ⟨hlines, hcolumns⟩ := Prod.mk.inj (Option.some.inj heq)
  have hline := ofNat_succ_inj ((lineFeedsBefore_le text i).trans_lt hsize)
    ((lineFeedsBefore_le text j).trans_lt hsize) hlines
  have hcolumn := ofNat_succ_inj ((columnsBefore_le text i).trans_lt hsize)
    ((columnsBefore_le text j).trans_lt hsize) hcolumns
  rcases counts_lt hi hj hij with hlt | ⟨-, hlt⟩ <;> omega

/-! ## Numbers that fit -/

/-- Line and column of an offset, as a reader counts them, are numbers of 32 bits. -/
structure Numbered (text : String) (offset : Nat) : Prop where
  line : lineFeedsBefore text offset + 1 < 2 ^ 32
  column : String.Pos.Raw.IsValid text ⟨offset⟩ → columnsBefore text offset + 1 < 2 ^ 32

/-- In a text of less than `2 ^ 32 - 1` bytes all lines and columns are such numbers. -/
lemma numbered_of_lt (hsize : text.utf8ByteSize < 2 ^ 32 - 1) (offset : Nat) :
    Numbered text offset := by
  have hlines := lineFeedsBefore_le text offset
  have hcolumns := columnsBefore_le text offset
  exact ⟨by omega, fun _ => by omega⟩

/-- One is added without loss as long as the number fits. -/
lemma succ?_of_lt (overflow : Overflow) {n : Nat} (h : n + 1 < 2 ^ 32) :
    overflow.succ? (UInt32.ofNat n) = some (UInt32.ofNat (n + 1)) := by
  have hne : UInt32.ofNat (n + 1) ≠ 0 := by
    intro hzero
    have hnat := congrArg UInt32.toNat hzero
    rw [UInt32.toNat_ofNat_of_lt' h] at hnat
    exact absurd hnat (Nat.succ_ne_zero n)
  rw [UInt32.ofNat_add] at hne ⊢
  cases overflow with
  | wraps => rfl
  | stops => exact if_neg hne

/-- The first number that does not fit stops the computation. -/
lemma succ?_stops {n : Nat} (h : n + 1 = 2 ^ 32) :
    Overflow.stops.succ? (UInt32.ofNat n) = none := by
  obtain rfl : n = 2 ^ 32 - 1 := by omega
  rfl

/-- The location of an offset whose line and column fit. -/
lemma locate?_of_numbered {offset : Nat} (h : Numbered text offset) (overflow : Overflow) :
    (ofText text).locate? overflow text offset =
      some (UInt32.ofNat (lineFeedsBefore text offset + 1),
        UInt32.ofNat ((if String.Pos.Raw.IsValid text ⟨offset⟩ then columnsBefore text offset
          else 0) + 1)) := by
  have hcolumn : (if String.Pos.Raw.IsValid text ⟨offset⟩ then columnsBefore text offset
      else 0) + 1 < 2 ^ 32 := by
    split
    · next hvalid => exact h.column hvalid
    · decide
  rw [locate?_ofText, succ?_of_lt overflow h.line, succ?_of_lt overflow hcolumn]
  rfl

/-- In a text of less than `2 ^ 32` bytes, no other offset has a location without overflow. -/
lemma locate?_of_not_numbered {offset : Nat} (hsize : text.utf8ByteSize < 2 ^ 32)
    (h : ¬Numbered text offset) : (ofText text).locate? .stops text offset = none := by
  have hlines := lineFeedsBefore_le text offset
  have hcolumns := columnsBefore_le text offset
  rw [locate?_ofText]
  by_cases hline : lineFeedsBefore text offset + 1 < 2 ^ 32
  · have hcolumn :
        ¬(String.Pos.Raw.IsValid text ⟨offset⟩ → columnsBefore text offset + 1 < 2 ^ 32) :=
      fun hcolumn => h ⟨hline, hcolumn⟩
    obtain ⟨hvalid, hge⟩ := Classical.not_imp.1 hcolumn
    rw [if_pos hvalid, succ?_of_lt _ hline, @succ?_stops (columnsBefore text offset) (by omega)]
    rfl
  · rw [@succ?_stops (lineFeedsBefore text offset) (by omega)]
    rfl

/-- **Lines and columns are counted, and grow with the offset.** Every offset whose line and column
are numbers of 32 bits has a location, also inside a character or past the end, and no overflow
occurs on the way to it.  Its line is one more than the number of line feeds at the bytes before it.
Between two characters its column is one more than the number of characters back to the last of
these line feeds, or to the start of the text; elsewhere it is one.  Of two such offsets between
characters the later one has the later line, or the same line and the later column.  In a text of
less than `2 ^ 32 - 1` bytes every offset is of this kind.  In one of `2 ^ 32 - 1` bytes an offset
may not be, and then the computation stops if overflow stops it.

**Proof sketch.** The location is known up to the last addition (`locate?_ofText`), which is exact
where the number fits (`succ?_of_lt`); there are no more line feeds and characters than bytes; and
counts grow with the offset (`counts_lt`). -/
theorem location_counted (text : String) :
    (∀ overflow offset, Numbered text offset →
      ∃ line column, (ofText text).locate? overflow text offset = some (line, column) ∧
        line.toNat = lineFeedsBefore text offset + 1 ∧
        (String.Pos.Raw.IsValid text ⟨offset⟩ → column.toNat = columnsBefore text offset + 1) ∧
        (¬String.Pos.Raw.IsValid text ⟨offset⟩ → column = 1)) ∧
    (∀ overflow i j p q, String.Pos.Raw.IsValid text ⟨i⟩ → String.Pos.Raw.IsValid text ⟨j⟩ →
      i < j → Numbered text i → Numbered text j →
      (ofText text).locate? overflow text i = some p →
      (ofText text).locate? overflow text j = some q → Prod.Lex (· < ·) (· < ·) p q) ∧
    (text.utf8ByteSize < 2 ^ 32 - 1 → ∀ offset, Numbered text offset) ∧
    (text.utf8ByteSize < 2 ^ 32 → ∀ offset, ¬Numbered text offset →
      (ofText text).locate? .stops text offset = none) := by
  refine ⟨fun overflow offset h => ?_, fun overflow i j p q hi hj hij hni hnj hp hq => ?_,
    numbered_of_lt, fun hsize offset => locate?_of_not_numbered hsize⟩
  · refine ⟨_, _, locate?_of_numbered h overflow, UInt32.toNat_ofNat_of_lt' h.line,
      fun hvalid => ?_, fun hvalid => ?_⟩
    · rw [if_pos hvalid]
      exact UInt32.toNat_ofNat_of_lt' (h.column hvalid)
    · rw [if_neg hvalid]
      rfl
  · rw [locate?_of_numbered hni, if_pos hi] at hp
    rw [locate?_of_numbered hnj, if_pos hj] at hq
    obtain rfl := Option.some.inj hp
    obtain rfl := Option.some.inj hq
    have hlt {m n : Nat} (hm : m + 1 < 2 ^ 32) (hn : n + 1 < 2 ^ 32) (h : m < n) :
        UInt32.ofNat (m + 1) < UInt32.ofNat (n + 1) := by
      rw [UInt32.lt_iff_toNat_lt, UInt32.toNat_ofNat_of_lt' hm, UInt32.toNat_ofNat_of_lt' hn]
      exact Nat.succ_lt_succ h
    rcases counts_lt hi hj hij with hline | ⟨heq, hcolumn⟩
    · exact .left _ _ (hlt hni.line hnj.line hline)
    · rw [heq]
      exact .right _ (hlt (hni.column hi) (hnj.column hj) hcolumn)

/-- Two lines, the first of characters of two bytes. -/
def twoLines : String := "ёж\nx"

/-- Behind the line feed the second line starts, later than the end of the first. -/
theorem location_counted_twoLines :
    Numbered twoLines 4 ∧ Numbered twoLines 5 ∧
      (ofText twoLines).locate? .stops twoLines 4 = some (1, 3) ∧
      (ofText twoLines).locate? .stops twoLines 5 = some (2, 1) ∧
      Prod.Lex (· < ·) (· < ·) ((1, 3) : UInt32 × UInt32) (2, 1) := by
  obtain ⟨-, hgrow, hall, -⟩ := location_counted twoLines
  have hnumbered := hall (by decide)
  have hend : (ofText twoLines).locate? .stops twoLines 4 = some (1, 3) := by decide +kernel
  have hstart : (ofText twoLines).locate? .stops twoLines 5 = some (2, 1) := by decide +kernel
  exact ⟨hnumbered 4, hnumbered 5, hend, hstart,
    hgrow .stops 4 5 _ _ (by decide +kernel) (by decide +kernel) (by decide) (hnumbered 4)
      (hnumbered 5) hend hstart⟩

/-- Behind `2 ^ 32 - 1` line feeds there is a line, of number `2 ^ 32`, and no location has it: the
computation stops, or it goes on from zero. -/
theorem location_overflow :
    (lineFeeds (2 ^ 32 - 1)).utf8ByteSize < 2 ^ 32 ∧
    lineFeedsBefore (lineFeeds (2 ^ 32 - 1)) (2 ^ 32 - 1) + 1 = 2 ^ 32 ∧
    (ofText (lineFeeds (2 ^ 32 - 1))).locate? .stops (lineFeeds (2 ^ 32 - 1)) (2 ^ 32 - 1) = none ∧
    ∃ column, (ofText (lineFeeds (2 ^ 32 - 1))).locate? .wraps (lineFeeds (2 ^ 32 - 1))
      (2 ^ 32 - 1) = some (0, column) := by
  have hsize := utf8ByteSize_lineFeeds (2 ^ 32 - 1)
  have hlines := lineFeedsBefore_lineFeeds (2 ^ 32 - 1)
  have hzero : UInt32.ofNat (2 ^ 32 - 1 + 1) = 0 := rfl
  refine ⟨by omega, by omega, locate?_of_not_numbered (by omega) fun h => ?_, _,
    (location?_ofText ..).trans (by rw [hlines, hzero])⟩
  have := h.line
  omega

end LineIndex

end Idyl
