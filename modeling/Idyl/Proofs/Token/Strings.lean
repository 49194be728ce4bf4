import Mathlib
import Idyl.Proofs.Token.Longest

/-!
# Where strings end and what they denote

A string is read in ones and twos: a backslash takes the character behind it along.  Seen from
outside, a quote closes the string exactly if the backslashes in front of it can be paired, so that
their number is even, and the first such quote is the one that counts.  If there is none, the string
takes all the text; then the backslashes at the end of the text say whether an escape was left
unfinished.

A body can be cut wherever no escape is cut in two, and its value is cut with it.

## Main definitions

* `Idyl.backslashesAtEnd` — the length of the run of backslashes that a text ends in.
* `Idyl.ClosesAt` — quotes that close a string.
* `Idyl.Denotes` — what is read between quotes.

## Main results

* `Idyl.even_backslashesAtEnd_escape` — an escape does not change the parity of a run.
* `Idyl.stringText_of_not_closesAt` — text without a closing quote is a body, or one with a
  backslash behind it.
* `Idyl.StringText.append_iff` — bodies and values are cut alike.
* `Idyl.readString_closes` — where strings end, what they denote, and how they fail.
-/

set_option autoImplicit false

namespace Idyl

/-! ## Runs of backslashes -/

/-- The number of backslashes that a text ends in. -/
def backslashesAtEnd (cs : List Char) : Nat := (cs.rtakeWhile (· = '\\')).length

/-- A character that is no backslash is in no run. -/
lemma backslashesAtEnd_cons {c : Char} (hc : c ≠ '\\') (cs : List Char) :
    backslashesAtEnd (c :: cs) = backslashesAtEnd cs := by
  unfold backslashesAtEnd List.rtakeWhile
  rw [List.reverse_cons, List.takeWhile_append]
  split
  · next hall => simp [hc, hall]
  · rfl

/-- **An escape does not change the parity of the run behind it.** It joins the run only if it is a
pair of backslashes. -/
lemma even_backslashesAtEnd_escape (c : Char) (cs : List Char) :
    Even (backslashesAtEnd ('\\' :: c :: cs)) ↔ Even (backslashesAtEnd cs) := by
  have hpair : Even ([c, '\\'].takeWhile (· = '\\')).length := by
    by_cases hc : c = '\\' <;> simp [hc]
  have hreverse : ('\\' :: c :: cs).reverse = cs.reverse ++ [c, '\\'] := by simp
  unfold backslashesAtEnd List.rtakeWhile
  rw [List.length_reverse, List.length_reverse, hreverse, List.takeWhile_append]
  split
  · next hall => rw [List.length_append, hall, Nat.even_add, iff_true_right hpair]
  · rfl

/-! ## Closing quotes -/

/-- At this index of a text a string closes: there is a quote, and the run of backslashes in front
of it has even length. -/
def ClosesAt (cs : List Char) (n : Nat) : Prop :=
  cs[n]? = some '"' ∧ Even (backslashesAtEnd (cs.take n))

/-- A character in front that is no backslash. -/
lemma closesAt_cons {c : Char} (hc : c ≠ '\\') {cs : List Char} {n : Nat} :
    ClosesAt (c :: cs) (n + 1) ↔ ClosesAt cs n := by
  unfold ClosesAt
  rw [List.getElem?_cons_succ, List.take_succ_cons, backslashesAtEnd_cons hc]

/-- An escape in front. -/
lemma closesAt_escape {c : Char} {cs : List Char} {n : Nat} :
    ClosesAt ('\\' :: c :: cs) (n + 2) ↔ ClosesAt cs n := by
  unfold ClosesAt
  rw [List.getElem?_cons_succ, List.getElem?_cons_succ, List.take_succ_cons, List.take_succ_cons,
    even_backslashesAtEnd_escape]

/-- A quote in front closes at once. -/
lemma closesAt_quote (cs : List Char) : ClosesAt ('"' :: cs) 0 := ⟨rfl, Even.zero⟩

/-- Before the first closing quote there is none. -/
lemma not_closesAt_take {cs : List Char} {n : Nat} (h : IsLeast {n | ClosesAt cs n} n) (m : Nat) :
    ¬ClosesAt (cs.take n) m := by
  rintro ⟨hquote, heven⟩
  obtain ⟨hm, -⟩ := List.getElem?_eq_some_iff.1 hquote
  have hlt : m < n := by
    rw [List.length_take] at hm
    omega
  rw [List.getElem?_take_of_lt hlt] at hquote
  rw [List.take_take, min_eq_left hlt.le] at heven
  exact (h.2 ⟨hquote, heven⟩).not_gt hlt

/-! ## Bodies -/

/-- **Text without a closing quote** is the body of a string, or such a body with a backslash behind
it, and the run of backslashes at its end says which.

**Proof sketch.** Induction along the characters as a string is read. -/
lemma stringText_of_not_closesAt {cs : List Char} (h : ∀ n, ¬ClosesAt cs n) :
    (Even (backslashesAtEnd cs) ∧ ∃ value, StringText cs value) ∨
      (Odd (backslashesAtEnd cs) ∧ ∃ body value, cs = body ++ ['\\'] ∧ StringText body value) := by
  fun_induction readStringBody cs with
  | case1 => exact .inl ⟨Even.zero, [], .nil⟩
  | case2 rest => exact absurd (closesAt_quote rest) (h 0)
  | case3 => exact .inr ⟨odd_one, [], [], rfl, .nil⟩
  | case4 c cs _ _ _ ih =>
    have hcs : ∀ n, ¬ClosesAt cs n := fun n hn => h (n + 2) (closesAt_escape.2 hn)
    rw [← Nat.not_even_iff_odd, even_backslashesAtEnd_escape, Nat.not_even_iff_odd]
    rcases ih hcs with ⟨heven, value, htext⟩ | ⟨hodd, body, value, rfl, htext⟩
    · exact .inl ⟨heven, _, .escape (stringEscape_iff.2 rfl) htext⟩
    · exact .inr ⟨hodd, _, _, rfl, .escape (stringEscape_iff.2 rfl) htext⟩
  | case5 c cs hquote hlast hescape _ _ _ ih =>
    have hbackslash := ne_backslash hlast hescape
    have hcs : ∀ n, ¬ClosesAt cs n := fun n hn => h (n + 1) ((closesAt_cons hbackslash).2 hn)
    rw [backslashesAtEnd_cons hbackslash]
    rcases ih hcs with ⟨heven, value, htext⟩ | ⟨hodd, body, value, rfl, htext⟩
    · exact .inl ⟨heven, _, .plain hquote hbackslash htext⟩
    · exact .inr ⟨hodd, _, _, rfl, .plain hquote hbackslash htext⟩

namespace StringText

variable {u v a b value : List Char}

/-- Two bodies, one behind the other. -/
lemma append (hu : StringText u a) (hv : StringText v b) : StringText (u ++ v) (a ++ b) := by
  induction hu with
  | nil => exact hv
  | plain hquote hbackslash _ ih => exact .plain hquote hbackslash ih
  | escape hescape _ ih =>
    rw [List.append_assoc]
    exact .escape hescape ih

/-- **Bodies and values are cut alike**, where no escape is cut in two. -/
lemma append_iff (hu : Even (backslashesAtEnd u)) :
    StringText (u ++ v) value ↔ ∃ a b, StringText u a ∧ StringText v b ∧ value = a ++ b := by
  constructor
  · intro h
    generalize hbody : u ++ v = body at h
    induction h generalizing u with
    | nil =>
      obtain ⟨rfl, rfl⟩ := List.append_eq_nil_iff.1 hbody
      exact ⟨[], [], .nil, .nil, rfl⟩
    | @plain c body value hquote hbackslash tail ih =>
      cases u with
      | nil =>
        subst hbody
        exact ⟨[], _, .nil, .plain hquote hbackslash tail, rfl⟩
      | cons d u =>
        obtain ⟨rfl, htail⟩ := List.cons.inj hbody
        rw [backslashesAtEnd_cons hbackslash] at hu
        obtain ⟨a, b, ha, hb, rfl⟩ := ih hu htail
        exact ⟨d :: a, b, .plain hquote hbackslash ha, hb, rfl⟩
    | @escape c text body value hescape tail ih =>
      obtain _ | ⟨d, _ | ⟨e, u⟩⟩ := u
      · subst hbody
        exact ⟨[], _, .nil, .escape hescape tail, rfl⟩
      · -- here the escape would be cut in two
        obtain ⟨rfl, -⟩ := List.cons.inj hbody
        exact absurd hu (by decide)
      · obtain ⟨rfl, htail⟩ := List.cons.inj hbody
        obtain ⟨rfl, hrest⟩ := List.cons.inj htail
        rw [even_backslashesAtEnd_escape] at hu
        obtain ⟨a, b, ha, hb, rfl⟩ := ih hu hrest
        exact ⟨_, b, .escape hescape ha, hb, by rw [List.append_assoc]⟩
  · rintro ⟨a, b, ha, hb, rfl⟩
    exact ha.append hb

end StringText

/-! ## Strings -/

/-- A string is read up to its closing quote, however it is written. -/
lemma readString_of_text {body value : List Char} (h : StringText body value) (rest : List Char) :
    readString (body ++ '"' :: rest) =
      ⟨.ok (.string (String.ofList value)), body.length + 1⟩ := by
  rw [readString, readStringBody_of_text h rest]
  rfl

/-- Between quotes, a body is read as a string of this value. -/
def Denotes (body value : List Char) : Prop :=
  readString (body ++ ['"']) = ⟨.ok (.string (String.ofList value)), body.length + 1⟩

/-- A body is read as a string if it is one. -/
lemma denotes_iff {body value : List Char} : Denotes body value ↔ StringText body value := by
  constructor
  · intro h
    rw [Denotes, readString] at h
    cases hread : readStringBody (body ++ ['"']) with
    | mk result length =>
      rw [hread] at h
      obtain ⟨houtcome, rfl⟩ := Lexed.mk.inj h
      cases result with
      | error fault => cases houtcome
      | ok found =>
        have hvalue : found = value := by
          simpa [Except.map, String.ofList_inj] using houtcome
        subst hvalue
        obtain ⟨body', htake, htext⟩ := readStringBody_text hread
        rw [List.take_of_length_le (by simp)] at htake
        obtain rfl := List.append_cancel_right htake
        exact htext
  · intro h
    exact readString_of_text h []

/-- **A string closes at the first quote that can close it**, and denotes what stands before it. -/
lemma readString_of_isLeast {cs : List Char} {n : Nat} (h : IsLeast {n | ClosesAt cs n} n) :
    ∃ value, readString cs = ⟨.ok (.string (String.ofList value)), n + 1⟩ ∧
      Denotes (cs.take n) value := by
  obtain ⟨hquote, heven⟩ := h.1
  obtain ⟨hlt, hget⟩ := List.getElem?_eq_some_iff.1 hquote
  have hsplit : cs = cs.take n ++ '"' :: cs.drop (n + 1) := by
    rw [← hget, ← List.drop_eq_getElem_cons hlt, List.take_append_drop]
  have hlength : (cs.take n).length = n := List.length_take_of_le hlt.le
  rcases stringText_of_not_closesAt (not_closesAt_take h) with ⟨-, value, htext⟩ | ⟨hodd, -⟩
  · refine ⟨value, ?_, denotes_iff.2 htext⟩
    have hread := readString_of_text htext (cs.drop (n + 1))
    rwa [← hsplit, hlength] at hread
  · exact absurd heven (Nat.not_even_iff_odd.2 hodd)

/-- **A string that does not close** takes all the text, and fails by what the text ends in. -/
lemma readString_of_not_closesAt {cs : List Char} (h : ∀ n, ¬ClosesAt cs n) :
    readString cs =
      ⟨.error (if Odd (backslashesAtEnd cs) then .unterminatedEscape else .unterminatedString),
        cs.length⟩ := by
  rcases stringText_of_not_closesAt h with ⟨heven, value, htext⟩ | ⟨hodd, body, value, hcs, htext⟩
  · have hread := readStringBody_append htext []
    rw [List.append_nil] at hread
    rw [readString, hread, if_neg (Nat.not_odd_iff_even.2 heven)]
    rfl
  · rw [if_pos hodd, hcs, readString, readStringBody_append htext ['\\'], List.length_append]
    rfl

/-- **Where strings end and what they denote.** Behind its opening quote, a string closes at the
first quote with an even run of backslashes in front of it, and takes the text through this quote.
If there is none it takes all the text; it fails because of an unfinished escape if the text ends in
an odd run of backslashes, and because of the missing quote otherwise.  A body can be cut behind any
part that does not end in an odd run, and its value is that of the one part followed by that of the
other.  Of the parts that cannot be cut further, a character stands for itself, an escape for the
character it is known for, and an unknown escape for its backslash and character.

**Proof sketch.** An escape does not change the parity of the run behind it
(`even_backslashesAtEnd_escape`), so text without a closing quote is the body of a string, apart
from a backslash at its end (`stringText_of_not_closesAt`).  What is read from bodies is known, and
bodies are cut with their values (`StringText.append_iff`). -/
theorem readString_closes (cs : List Char) :
    (∀ n, IsLeast {n | ClosesAt cs n} n →
      ∃ value, readString cs = ⟨.ok (.string (String.ofList value)), n + 1⟩ ∧
        Denotes (cs.take n) value) ∧
    ((∀ n, ¬ClosesAt cs n) → readString cs =
      ⟨.error (if Odd (backslashesAtEnd cs) then .unterminatedEscape else .unterminatedString),
        cs.length⟩) ∧
    (∀ u v value, ¬Odd (backslashesAtEnd u) →
      (Denotes (u ++ v) value ↔ ∃ a b, Denotes u a ∧ Denotes v b ∧ value = a ++ b)) ∧
    (∀ c, c ≠ '"' → c ≠ '\\' → Denotes [c] [c]) ∧
    (∀ e ∈ [('n', '\n'), ('t', '\t'), ('r', '\r'), ('"', '"'), ('\\', '\\'), ('e', '\x1b')],
      Denotes ['\\', e.1] [e.2]) ∧
    ∀ c ∉ ['n', 't', 'r', '"', '\\', 'e'], Denotes ['\\', c] ['\\', c] := by
  have hescape : ∀ {c text}, StringEscape c text → Denotes ['\\', c] text := by
    intro c text h
    rw [← List.append_nil text]
    exact denotes_iff.2 (.escape h .nil)
  refine ⟨fun n => readString_of_isLeast, readString_of_not_closesAt, ?_, ?_, ?_, ?_⟩
  · intro u v value hu
    simp only [denotes_iff]
    exact StringText.append_iff (Nat.not_odd_iff_even.1 hu)
  · intro c hquote hbackslash
    exact denotes_iff.2 (.plain hquote hbackslash .nil)
  · intro e he
    simp only [List.mem_cons, List.not_mem_nil, or_false] at he
    obtain rfl | rfl | rfl | rfl | rfl | rfl := he
    exacts [hescape .lineFeed, hescape .tab, hescape .carriageReturn, hescape .quote,
      hescape .backslash, hescape .control]
  · exact fun c hc => hescape (.unknown hc)

/-- Two backslashes are an escape, so the quote behind them closes the string. -/
theorem readString_closes_pair :
    IsLeast {n | ClosesAt ['\\', '\\', '"', '"'] n} 2 ∧
      ∃ value, readString ['\\', '\\', '"', '"'] = ⟨.ok (.string (String.ofList value)), 3⟩ ∧
        Denotes ['\\', '\\'] value := by
  have hleast : IsLeast {n | ClosesAt ['\\', '\\', '"', '"'] n} 2 := by
    refine ⟨⟨rfl, by decide⟩, ?_⟩
    rintro n ⟨hquote, -⟩
    obtain _ | _ | n := n
    · cases hquote
    · cases hquote
    · omega
  exact ⟨hleast, (readString_closes _).1 2 hleast⟩

end Idyl
