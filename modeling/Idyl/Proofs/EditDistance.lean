import Mathlib
import Idyl.EditDistance

/-!
# The edit distance is a least number of edits

An edit inserts, removes or replaces one character at some place of a text.  A script is a list of
edits, made one after the other, in any order and at any places.  The distance that is computed row
by row is the length of a shortest script that turns one text into the other.

The distance has a recursion along both texts.  From it a script of that length is read off; and it
shows that a single edit, wherever it is made, changes the distance to any text by at most one, so
that no script is shorter.  The rows are filled from the starts of the texts on, which takes the
recursion at the ends of both texts; it holds there too, since both can be read backwards.

## Main definitions

* `Idyl.Edit`, `Idyl.Edit.perform?` — edits and what they do to a text.
* `Idyl.performAll?` — what a script does to a text.
* `Idyl.EditDistance.distance` — the recursion of the distance.
* `Idyl.EditDistance.Fills` — what stands in a row.

## Main results

* `Idyl.EditDistance.exists_script` — a script as long as the distance.
* `Idyl.EditDistance.distance_le_of_perform?` — one edit changes the distance by at most one.
* `Idyl.EditDistance.lastRow?_fills` — the last row.
* `Idyl.editDistance_isLeast` — the distance is the length of a shortest script.
-/

set_option autoImplicit false

namespace Idyl

/-! ## Edits and scripts -/

/-- One edit of a text, at a place counted in characters from its start. -/
inductive Edit where
  | insert (place : Nat) (c : Char)
  | remove (place : Nat)
  | replace (place : Nat) (c : Char)

namespace Edit

/-- The text after an edit; nothing if the text has no such place. -/
def perform? : Edit → List Char → Option (List Char)
  | insert place c, cs => if place ≤ cs.length then some (cs.insertIdx place c) else none
  | remove place, cs => if place < cs.length then some (cs.eraseIdx place) else none
  | replace place c, cs => if place < cs.length then some (cs.set place c) else none

/-- The same edit, one character further on. -/
def later : Edit → Edit
  | insert place c => insert (place + 1) c
  | remove place => remove (place + 1)
  | replace place c => replace (place + 1) c

/-- An edit behind the first character leaves that character alone. -/
lemma perform?_later (e : Edit) (c : Char) (cs : List Char) :
    e.later.perform? (c :: cs) = (e.perform? cs).map (c :: ·) := by
  cases e with
  | insert place d =>
    simp only [later, perform?, List.length_cons, Nat.add_le_add_iff_right,
      List.insertIdx_succ_cons]
    split <;> rfl
  | remove place =>
    simp only [later, perform?, List.length_cons, Nat.add_lt_add_iff_right, List.eraseIdx_cons_succ]
    split <;> rfl
  | replace place d =>
    simp only [later, perform?, List.length_cons, Nat.add_lt_add_iff_right, List.set_cons_succ]
    split <;> rfl

/-- What one edit can do: between the text before its place and the text behind it a character
comes, goes, or gives way to another. -/
lemma perform?_cases {e : Edit} {cs ds : List Char} (h : e.perform? cs = some ds) :
    (∃ before c after, cs = before ++ after ∧ ds = before ++ c :: after) ∨
    (∃ before c after, cs = before ++ c :: after ∧ ds = before ++ after) ∨
    ∃ before c d after, cs = before ++ c :: after ∧ ds = before ++ d :: after := by
  cases e with
  | insert place c =>
    left
    rw [perform?] at h
    split at h
    · next hplace =>
      obtain ⟨before, after, hcs, -, hinsert⟩ := List.exists_of_modifyTailIdx (List.cons c) hplace
      refine ⟨before, c, after, hcs, ?_⟩
      rw [← Option.some.inj h]
      exact hinsert
    · simp at h
  | remove place =>
    right; left
    rw [perform?] at h
    split at h
    · next hplace =>
      refine ⟨cs.take place, cs[place], cs.drop (place + 1), ?_, ?_⟩
      · rw [List.getElem_cons_drop, List.take_append_drop]
      · rw [← Option.some.inj h, List.eraseIdx_eq_take_drop_succ]
    · simp at h
  | replace place d =>
    right; right
    rw [perform?] at h
    split at h
    · next hplace =>
      obtain ⟨before, after, hcs, -, hset⟩ := @List.exists_of_set _ place d cs hplace
      refine ⟨before, cs[place], d, after, hcs, ?_⟩
      rw [← Option.some.inj h, hset]
    · simp at h

/-- Inserts a character behind the text `before`. -/
lemma perform?_insert (before : List Char) (c : Char) (after : List Char) :
    (insert before.length c).perform? (before ++ after) = some (before ++ c :: after) := by
  rw [perform?, if_pos (by simp)]
  congr 1
  induction before with
  | nil => rfl
  | cons d before ih => exact congrArg (d :: ·) ih

/-- Removes the character behind the text `before`. -/
lemma perform?_remove (before : List Char) (c : Char) (after : List Char) :
    (remove before.length).perform? (before ++ c :: after) = some (before ++ after) := by
  rw [perform?, if_pos (by simp), List.eraseIdx_append_of_length_le le_rfl, Nat.sub_self]
  rfl

/-- Puts another character in place of the one behind the text `before`. -/
lemma perform?_replace (before : List Char) (c d : Char) (after : List Char) :
    (replace before.length d).perform? (before ++ c :: after) = some (before ++ d :: after) := by
  rw [perform?, if_pos (by simp), List.set_append_right _ _ le_rfl, Nat.sub_self]
  rfl

/-- An edit can be made as well if the text is read backwards. -/
lemma exists_perform?_reverse {e : Edit} {cs ds : List Char} (h : e.perform? cs = some ds) :
    ∃ e' : Edit, e'.perform? cs.reverse = some ds.reverse := by
  rcases perform?_cases h with ⟨before, c, after, rfl, rfl⟩ | ⟨before, c, after, rfl, rfl⟩ |
    ⟨before, c, d, after, rfl, rfl⟩
  · exact ⟨_, by simpa using perform?_insert after.reverse c before.reverse⟩
  · exact ⟨_, by simpa using perform?_remove after.reverse c before.reverse⟩
  · exact ⟨_, by simpa using perform?_replace after.reverse c d before.reverse⟩

end Edit

/-- The text after all edits of a script; nothing if one of them cannot be made. -/
def performAll? : List Edit → List Char → Option (List Char)
  | [], cs => some cs
  | e :: es, cs => (e.perform? cs).bind (performAll? es)

/-- A script that is made behind the first character leaves that character alone. -/
lemma performAll?_later {es : List Edit} {cs ds : List Char} (h : performAll? es cs = some ds)
    (c : Char) : performAll? (es.map Edit.later) (c :: cs) = some (c :: ds) := by
  induction es generalizing cs with
  | nil =>
    obtain rfl : cs = ds := Option.some.inj h
    rfl
  | cons e es ih =>
    obtain ⟨us, hfirst, hothers⟩ := Option.bind_eq_some_iff.1 h
    rw [List.map_cons, performAll?, Edit.perform?_later, hfirst]
    exact ih hothers

/-- A script can be made as well if all texts are read backwards. -/
lemma exists_performAll?_reverse {es : List Edit} {cs ds : List Char}
    (h : performAll? es cs = some ds) :
    ∃ es' : List Edit, es'.length = es.length ∧ performAll? es' cs.reverse = some ds.reverse := by
  induction es generalizing cs with
  | nil =>
    obtain rfl : cs = ds := Option.some.inj h
    exact ⟨[], rfl, rfl⟩
  | cons e es ih =>
    obtain ⟨us, hfirst, hothers⟩ := Option.bind_eq_some_iff.1 h
    obtain ⟨e', hfirst'⟩ := Edit.exists_perform?_reverse hfirst
    obtain ⟨es', hlength, hothers'⟩ := ih hothers
    exact ⟨e' :: es', by simp [hlength], by rw [performAll?, hfirst']; exact hothers'⟩

namespace EditDistance

/-! ## The recursion of the distance -/

/-- The distance from one text to another: the first character of `c :: as` is removed, or that of
`b :: bs` is inserted, or one of them is put in place of the other. -/
def distance : List Char → List Char → Nat
  | [], bs => bs.length
  | _ :: as, [] => as.length + 1
  | c :: as, b :: bs =>
    leastEdit c b (distance as (b :: bs)) (distance (c :: as) bs) (distance as bs)
termination_by as bs => as.length + bs.length

/-- From nothing, everything is inserted. -/
lemma distance_nil_left (bs : List Char) : distance [] bs = bs.length := by
  rw [distance]

/-- To nothing, everything is removed. -/
lemma distance_nil_right (as : List Char) : distance as [] = as.length := by
  cases as with
  | nil => exact distance_nil_left []
  | cons c as =>
    rw [distance]
    rfl

/-- The recursion of the distance. -/
lemma distance_cons_cons (c : Char) (as : List Char) (b : Char) (bs : List Char) :
    distance (c :: as) (b :: bs) =
      leastEdit c b (distance as (b :: bs)) (distance (c :: as) bs) (distance as bs) := by
  rw [distance]

/-- The least of three is one of them. -/
lemma leastEdit_cases (c b : Char) (remove insert replace : Nat) :
    leastEdit c b remove insert replace = remove + 1 ∨
      leastEdit c b remove insert replace = insert + 1 ∨
      leastEdit c b remove insert replace = replace + if c = b then 0 else 1 := by
  unfold leastEdit
  omega

/-- The least of three is at most each of them. -/
lemma leastEdit_le (c b : Char) (remove insert replace : Nat) :
    leastEdit c b remove insert replace ≤ remove + 1 ∧
      leastEdit c b remove insert replace ≤ insert + 1 ∧
      leastEdit c b remove insert replace ≤ replace + if c = b then 0 else 1 := by
  unfold leastEdit
  omega

/-- A character that is put in place of another costs at most one edit. -/
lemma leastEdit_le_replace (c b : Char) (remove insert replace : Nat) :
    leastEdit c b remove insert replace ≤ replace + 1 := by
  have hreplace := (leastEdit_le c b remove insert replace).2.2
  split at hreplace <;> omega

/-- From the other side, what was removed is inserted. -/
lemma leastEdit_comm (c b : Char) (remove insert replace : Nat) :
    leastEdit c b remove insert replace = leastEdit b c insert remove replace := by
  unfold leastEdit
  rw [Nat.min_comm (remove + 1), if_congr eq_comm rfl rfl]

/-- **The distance is the same from both sides.** -/
lemma distance_comm (as bs : List Char) : distance as bs = distance bs as := by
  induction as generalizing bs with
  | nil => rw [distance_nil_left, distance_nil_right]
  | cons c as ihas =>
    induction bs with
    | nil => rw [distance_nil_left, distance_nil_right]
    | cons b bs ihbs =>
      rw [distance_cons_cons, distance_cons_cons, ihas, ihas, ihbs]
      exact leastEdit_comm ..

/-- A text is at no distance from itself. -/
lemma distance_self (as : List Char) : distance as as = 0 := by
  induction as with
  | nil => exact distance_nil_left []
  | cons c as ih =>
    have hle := (leastEdit_le c c (distance as (c :: as)) (distance (c :: as) as)
      (distance as as)).2.2
    rw [if_pos rfl, ih] at hle
    rw [distance_cons_cons, ih]
    omega

/-! ## A script as long as the distance -/

/-- **A script as long as the distance** turns one text into the other.

**Proof sketch.** Induction on both texts along the recursion.  A first character is removed before
all other edits; where a first character is inserted, put in place of another or kept, the other
edits are made behind it. -/
lemma exists_script (as bs : List Char) :
    ∃ es : List Edit, es.length = distance as bs ∧ performAll? es as = some bs := by
  induction as generalizing bs with
  | nil =>
    induction bs with
    | nil => exact ⟨[], (distance_nil_left []).symm, rfl⟩
    | cons b bs ih =>
      obtain ⟨es, hlength, hes⟩ := ih
      refine ⟨.insert 0 b :: es.map Edit.later, ?_, performAll?_later hes b⟩
      rw [distance_nil_left] at hlength ⊢
      simp [hlength]
  | cons c as ihas =>
    induction bs with
    | nil =>
      obtain ⟨es, hlength, hes⟩ := ihas []
      refine ⟨.remove 0 :: es, ?_, hes⟩
      rw [distance_nil_right] at hlength ⊢
      simp [hlength]
    | cons b bs ihbs =>
      rw [distance_cons_cons]
      rcases leastEdit_cases c b (distance as (b :: bs)) (distance (c :: as) bs)
        (distance as bs) with h | h | h
      · obtain ⟨es, hlength, hes⟩ := ihas (b :: bs)
        exact ⟨.remove 0 :: es, by simp [h, hlength], hes⟩
      · obtain ⟨es, hlength, hes⟩ := ihbs
        exact ⟨.insert 0 b :: es.map Edit.later, by simp [h, hlength], performAll?_later hes b⟩
      · obtain ⟨es, hlength, hes⟩ := ihas bs
        by_cases hcb : c = b
        · subst hcb
          exact ⟨es.map Edit.later, by simp [h, hlength], performAll?_later hes c⟩
        · exact ⟨.replace 0 b :: es.map Edit.later, by simp [h, hlength, hcb],
            performAll?_later hes b⟩

/-! ## No script is shorter -/

/-- A character more in the other text is inserted. -/
lemma distance_cons_right_le (as : List Char) (b : Char) (bs : List Char) :
    distance as (b :: bs) ≤ distance as bs + 1 := by
  cases as with
  | nil => simp [distance_nil_left]
  | cons c as =>
    rw [distance_cons_cons]
    exact (leastEdit_le c b _ _ _).2.1

/-- A character more is removed again. -/
lemma distance_cons_left_le (c : Char) (as bs : List Char) :
    distance (c :: as) bs ≤ distance as bs + 1 := by
  cases bs with
  | nil => simp [distance_nil_right]
  | cons b bs =>
    rw [distance_cons_cons]
    exact (leastEdit_le c b _ _ _).1

/-- A character less is inserted again. -/
lemma distance_le_cons_left (c : Char) (as bs : List Char) :
    distance as bs ≤ distance (c :: as) bs + 1 := by
  induction bs with
  | nil =>
    rw [distance_nil_right, distance_nil_right, List.length_cons]
    omega
  | cons b bs ih =>
    -- where `b` is inserted or stands in the place of `c`, it is inserted in front of `as` instead
    have hright := distance_cons_right_le as b bs
    rw [distance_cons_cons]
    rcases leastEdit_cases c b (distance as (b :: bs)) (distance (c :: as) bs)
      (distance as bs) with h | h | h <;> omega

/-- Another first character is put in its place. -/
lemma distance_replace_le (c d : Char) (as bs : List Char) :
    distance (c :: as) bs ≤ distance (d :: as) bs + 1 := by
  induction bs with
  | nil => simp [distance_nil_right]
  | cons b bs ih =>
    have hle := leastEdit_le c b (distance as (b :: bs)) (distance (c :: as) bs) (distance as bs)
    have hreplace := leastEdit_le_replace c b (distance as (b :: bs)) (distance (c :: as) bs)
      (distance as bs)
    rw [distance_cons_cons, distance_cons_cons]
    rcases leastEdit_cases d b (distance as (b :: bs)) (distance (d :: as) bs)
      (distance as bs) with h | h | h <;> omega

/-- Two texts that are at most one apart, as seen from any text, stay so behind a common first
character. -/
lemma distance_cons_le {as as' : List Char}
    (h : ∀ bs, distance as bs ≤ distance as' bs + 1) (c : Char) (bs : List Char) :
    distance (c :: as) bs ≤ distance (c :: as') bs + 1 := by
  induction bs with
  | nil =>
    have hnil := h []
    rw [distance_nil_right, distance_nil_right] at hnil
    simp only [distance_nil_right, List.length_cons]
    omega
  | cons b bs ih =>
    have hremove := h (b :: bs)
    have hrest := h bs
    have hle := leastEdit_le c b (distance as (b :: bs)) (distance (c :: as) bs) (distance as bs)
    rw [distance_cons_cons, distance_cons_cons]
    rcases leastEdit_cases c b (distance as' (b :: bs)) (distance (c :: as') bs)
      (distance as' bs) with hmin | hmin | hmin <;> omega

/-- Two texts that are at most one apart, as seen from any text, stay so behind a common start. -/
lemma distance_append_le {as as' : List Char}
    (h : ∀ bs, distance as bs ≤ distance as' bs + 1) (before bs : List Char) :
    distance (before ++ as) bs ≤ distance (before ++ as') bs + 1 := by
  induction before generalizing bs with
  | nil => exact h bs
  | cons c before ih => exact distance_cons_le ih c bs

/-- **One edit changes the distance by at most one**, wherever it is made and whatever the text that
is to be reached. -/
lemma distance_le_of_perform? {e : Edit} {as as' : List Char} (h : e.perform? as = some as')
    (bs : List Char) : distance as bs ≤ distance as' bs + 1 := by
  rcases Edit.perform?_cases h with ⟨before, c, after, rfl, rfl⟩ | ⟨before, c, after, rfl, rfl⟩ |
    ⟨before, c, d, after, rfl, rfl⟩
  · exact distance_append_le (distance_le_cons_left c after) before bs
  · exact distance_append_le (distance_cons_left_le c after) before bs
  · exact distance_append_le (distance_replace_le c d after) before bs

/-- **A script changes the distance by at most its length.** -/
lemma distance_le_of_performAll? {es : List Edit} {as as' : List Char}
    (h : performAll? es as = some as') (bs : List Char) :
    distance as bs ≤ distance as' bs + es.length := by
  induction es generalizing as with
  | nil =>
    obtain rfl : as = as' := Option.some.inj h
    exact Nat.le_add_right _ _
  | cons e es ih =>
    obtain ⟨us, hfirst, hothers⟩ := Option.bind_eq_some_iff.1 h
    have hstep := distance_le_of_perform? hfirst bs
    have hrun := ih hothers
    rw [List.length_cons]
    omega

/-- Reading both texts backwards brings them no further apart. -/
lemma distance_reverse_le (as bs : List Char) :
    distance as.reverse bs.reverse ≤ distance as bs := by
  obtain ⟨es, hlength, hes⟩ := exists_script as bs
  obtain ⟨es', hlength', hes'⟩ := exists_performAll?_reverse hes
  have hle := distance_le_of_performAll? hes' bs.reverse
  rw [distance_self] at hle
  omega

/-- **Both texts can be read backwards.** -/
lemma distance_reverse (as bs : List Char) :
    distance as.reverse bs.reverse = distance as bs := by
  have hle := distance_reverse_le as bs
  have hge := distance_reverse_le as.reverse bs.reverse
  rw [List.reverse_reverse, List.reverse_reverse] at hge
  omega

/-! ## Rows -/

/-- The recursion of the distance at the ends of both texts. -/
lemma distance_concat_concat (as : List Char) (c : Char) (bs : List Char) (b : Char) :
    distance (as ++ [c]) (bs ++ [b]) =
      leastEdit c b (distance as (bs ++ [b])) (distance (as ++ [c]) bs) (distance as bs) := by
  rw [← distance_reverse, ← distance_reverse as (bs ++ [b]), ← distance_reverse (as ++ [c]) bs,
    ← distance_reverse as bs, List.reverse_concat, List.reverse_concat, distance_cons_cons]

/-- A row lists the distances from `as` to all starts of `bs`. -/
def Fills (as bs : List Char) (row : Array Nat) : Prop := row.toList = bs.inits.map (distance as)

/-- The entries of a row. -/
lemma Fills.getElem? {as bs : List Char} {row : Array Nat} (h : Fills as bs row)
    {before : List Char} (hbefore : before <+: bs) :
    row[before.length]? = some (distance as before) := by
  obtain ⟨bs, rfl⟩ := hbefore
  have hlt : before.length < (before ++ bs).inits.length := by
    rw [List.length_inits, List.length_append]
    omega
  rw [← Array.getElem?_toList, h, List.getElem?_map, List.getElem?_eq_getElem hlt,
    List.getElem_inits, List.take_left]
  rfl

/-- A row with one more entry. -/
lemma Fills.push {as bs : List Char} {row : Array Nat} (h : Fills as bs row) (b : Char) :
    Fills as (bs ++ [b]) (row.push (distance as (bs ++ [b]))) := by
  rw [Fills, Array.toList_push, h, List.inits_append, List.map_append]
  rfl

/-- The first row: everything is inserted. -/
lemma fills_range (bs : List Char) : Fills [] bs (Array.range (bs.length + 1)) := by
  refine List.ext_getElem ?_ fun j hj hj' => ?_
  · simp
  · have hle : j ≤ bs.length := by simpa [Nat.lt_succ_iff] using hj
    simp [List.getElem_inits, distance_nil_left, hle]

/-- **The next entry of a row** is the distance to the start that is one character longer. -/
lemma cell?_eq {as : List Char} {c : Char} {front : List Char} {b : Char} {back : List Char}
    {above row : Array Nat} (habove : Fills as (front ++ b :: back) above)
    (hrow : Fills (as ++ [c]) front row) :
    cell? above row c b front.length = some (distance (as ++ [c]) (front ++ [b])) := by
  have hlonger : front ++ [b] <+: front ++ b :: back := ⟨back, (List.append_cons ..).symm⟩
  have hremove : above[front.length + 1]? = some (distance as (front ++ [b])) := by
    simpa using habove.getElem? hlonger
  rw [cell?, hremove, hrow.getElem? List.prefix_rfl, habove.getElem? (List.prefix_append ..),
    distance_concat_concat]
  rfl

/-- **The inner loop**: what is left of the shorter text fills the rest of the row.

**Proof sketch.** Induction on what is left.  Each round appends the entry of one more character
(`cell?_eq`, `Fills.push`). -/
lemma foldlM_cell?_fills (front : List Char) {back as : List Char} {c : Char}
    {above row : Array Nat} (habove : Fills as (front ++ back) above)
    (hrow : Fills (as ++ [c]) front row) :
    ∃ row', (back.zipIdx front.length).foldlM
        (fun row x => (cell? above row c x.1 x.2).map row.push) row = some row' ∧
      Fills (as ++ [c]) (front ++ back) row' := by
  induction back generalizing front row with
  | nil => exact ⟨row, rfl, by rwa [List.append_nil]⟩
  | cons b back ih =>
    obtain ⟨row', hloop, hfills⟩ := ih (front ++ [b]) (by simpa using habove) (hrow.push b)
    refine ⟨row', ?_, by simpa using hfills⟩
    rw [List.zipIdx_cons, List.foldlM_cons, cell?_eq habove hrow]
    simpa using hloop

/-- The row below a row. -/
lemma nextRow?_fills {as short : List Char} {above : Array Nat} (habove : Fills as short above)
    (c : Char) :
    ∃ row, nextRow? short above c as.length = some row ∧ Fills (as ++ [c]) short row := by
  refine foldlM_cell?_fills [] habove ?_
  simp [Fills, distance_nil_right]

/-- **The outer loop**: what is left of the longer text adds its rows, the last of which is kept. -/
lemma foldlM_nextRow?_fills (front : List Char) {back short : List Char} {row : Array Nat}
    (hrow : Fills front short row) :
    ∃ row', (back.zipIdx front.length).foldlM (fun above x => nextRow? short above x.1 x.2) row =
        some row' ∧ Fills (front ++ back) short row' := by
  induction back generalizing front row with
  | nil => exact ⟨row, rfl, by rwa [List.append_nil]⟩
  | cons c back ih =>
    obtain ⟨next, hnext, hfills⟩ := nextRow?_fills hrow c
    obtain ⟨row', hloop, hfills'⟩ := ih (front ++ [c]) hfills
    refine ⟨row', ?_, by simpa using hfills'⟩
    rw [List.zipIdx_cons, List.foldlM_cons, hnext]
    simpa using hloop

/-- **The last row** lists the distances from the whole of the longer text. -/
lemma lastRow?_fills (long short : List Char) :
    ∃ row, lastRow? long short = some row ∧ Fills long short row :=
  foldlM_nextRow?_fills [] (fills_range short)

/-- The last entry of the last row is the distance of the whole texts. -/
lemma lastCell?_eq (long short : List Char) :
    lastCell? long short = some (distance long short) := by
  obtain ⟨row, hrow, hfills⟩ := lastRow?_fills long short
  rw [lastCell?, hrow]
  exact hfills.getElem? List.prefix_rfl

end EditDistance

/-- No entry is missing on the way, and it does not matter which text takes the rows. -/
lemma editDistance?_eq (a b : String) :
    editDistance? a b = some (EditDistance.distance a.toList b.toList) := by
  rw [editDistance?]
  split
  · rw [EditDistance.lastCell?_eq, EditDistance.distance_comm]
  · exact EditDistance.lastCell?_eq ..

/-- **The edit distance is the length of a shortest script** of insertions, removals and
replacements of single characters that turns the first text into the second, whichever of them is
the longer one.  It is always found: no entry is asked for that is not there.

**Proof sketch.** The rows hold distances (`editDistance?_eq`).  There is a script as long as the
distance (`exists_script`).  A script that leads to `b` changes the distance to `b` from that of `a`
to zero, and by at most one with each edit (`distance_le_of_performAll?`). -/
theorem editDistance_isLeast (a b : String) :
    editDistance? a b = some (editDistance a b) ∧
    IsLeast {n | ∃ es : List Edit, es.length = n ∧ performAll? es a.toList = some b.toList}
      (editDistance a b) := by
  have hfound := editDistance?_eq a b
  have hvalue : editDistance a b = EditDistance.distance a.toList b.toList := by
    rw [editDistance, hfound, Option.getD_some]
  rw [hvalue]
  refine ⟨hfound, EditDistance.exists_script a.toList b.toList, ?_⟩
  rintro n ⟨es, rfl, hes⟩
  have hle := EditDistance.distance_le_of_performAll? hes b.toList
  rw [EditDistance.distance_self, Nat.zero_add] at hle
  exact hle

example : editDistance "kitten" "sitting" = 3 := by decide

end Idyl
