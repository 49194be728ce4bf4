import Mathlib
import Idyl.Grammar.Session
import Idyl.Proofs.Grammar.Lookahead

/-!
# Sessions of several calls

A session can be asked for programs and libraries as often as one likes; each call goes on where the
one before it stopped.  Whatever the tokens are, a session never gets past the first end of file,
and stays there once a call has succeeded.

## Main definitions

* `Idyl.Session.endIndex`, `Idyl.Session.Sound` — the first end of file, and sessions that have not
  got past it.
* `Idyl.Session.Call`, `Idyl.Session.Answer`, `Idyl.Session.run` — calls, one after the other.

## Main results

* `Idyl.Session.read_of_rest` — reading by a rule moves a session by what the rule takes.
* `Idyl.Session.Sound.call` — no call gets past the end of the file.
* `Idyl.Session.exhausted_of_isOk`, `Idyl.Session.run_of_exhausted` — after a success, nothing is
  left to read.
-/

set_option autoImplicit false

namespace Idyl.Session

/-! ## The end of the file -/

/-- The number of tokens in front of the first end-of-file token. -/
def endIndex (tokens : List Token) : Nat := tokens.findIdx (·.kind = .endOfFile)

/-- No token in front of the first end ends the file. -/
lemma kind_ne_of_mem_take {tokens : List Token} {t : Token}
    (h : t ∈ tokens.take (endIndex tokens)) : t.kind ≠ .endOfFile := by
  obtain ⟨i, hi, rfl⟩ := List.getElem_of_mem h
  rw [List.length_take] at hi
  rw [List.getElem_take]
  simpa using List.not_of_lt_findIdx (show i < endIndex tokens by omega)

/-- Behind the tokens in front of the first end-of-file token stands this one. -/
lemma drop_endIndex {tokens : List Token} (h : endIndex tokens < tokens.length) :
    ∃ t rest, tokens.drop (endIndex tokens) = t :: rest ∧ t.kind = .endOfFile := by
  refine ⟨tokens[endIndex tokens], _, List.drop_eq_getElem_cons h, ?_⟩
  have hp : decide (tokens[endIndex tokens].kind = .endOfFile) = true :=
    List.findIdx_getElem (p := fun t : Token => decide (t.kind = .endOfFile)) (w := h)
  simpa using hp

/-- A session that has an end of file ahead and has not got past any. -/
structure Sound (s : Session) : Prop where
  pos_le : s.pos ≤ endIndex s.tokens
  endIndex_lt : endIndex s.tokens < s.tokens.length

/-- A new session is sound. -/
lemma sound_ofTokens (tokens : List Token) : (ofTokens tokens).Sound := by
  refine ⟨Nat.zero_le _, List.findIdx_lt_length.2 ?_⟩
  unfold ofTokens complete
  cases hlast : tokens.getLast? with
  | none => exact ⟨_, List.mem_singleton_self _, rfl⟩
  | some t =>
    by_cases hk : t.kind = .endOfFile
    · exact ⟨t, by simpa [hk] using List.mem_of_getLast? hlast, by simpa using hk⟩
    · exact ⟨endToken tokens, by simp [hk], rfl⟩

variable {s : Session}

/-- The tokens from the position on are those in front of the end of the file, and those from there
on. -/
lemma drop_pos (h : s.Sound) : s.tokens.drop s.pos =
    (s.tokens.take (endIndex s.tokens)).drop s.pos ++ s.tokens.drop (endIndex s.tokens) := by
  rw [← List.drop_append_of_le_length, List.take_append_drop]
  rw [List.length_take]
  have := h.pos_le
  have := h.endIndex_lt
  omega

/-- What is ahead of a sound session ends at the first end of the file. -/
lemma ahead_eq (h : s.Sound) : s.ahead = (s.tokens.take (endIndex s.tokens)).drop s.pos := by
  obtain ⟨t, rest, hdrop, ht⟩ := drop_endIndex h.endIndex_lt
  rw [ahead, drop_pos h, hdrop, List.takeWhile_append_of_pos, List.takeWhile_cons_of_neg,
    List.append_nil]
  · simp [ht]
  · intro u hu
    simpa using kind_ne_of_mem_take (List.mem_of_mem_drop hu)

/-- The number of tokens ahead of a sound session. -/
lemma length_ahead (h : s.Sound) : s.ahead.length = endIndex s.tokens - s.pos := by
  have := h.endIndex_lt
  rw [ahead_eq h, List.length_drop, List.length_take]
  omega

/-- No token ahead ends the file. -/
lemma kind_ne_of_mem_ahead {t : Token} (h : t ∈ s.ahead) : t.kind ≠ .endOfFile := by
  simpa using List.mem_takeWhile_imp h

/-- What is ahead holds no end of file, so only the end of the list looks like one. -/
lemma eq_nil_of_peek {n : Nat} (hp : peek (s.ahead.drop n) = .endOfFile) :
    s.ahead.drop n = [] := by
  cases hd : s.ahead.drop n with
  | nil => rfl
  | cons t rest =>
    have hmem : t ∈ s.ahead.drop n := by rw [hd]; exact List.mem_cons_self
    rw [hd] at hp
    exact absurd hp (kind_ne_of_mem_ahead (List.mem_of_mem_drop hmem))

/-- Looking for the end of a file from in front of it finds the first one, in every list that goes
the same way up to there. -/
lemma find?_of_take {tokens ts : List Token} {pos : Nat} (hpos : pos ≤ endIndex tokens)
    (hlt : endIndex tokens < tokens.length)
    (htake : ts.take (endIndex tokens + 1) = tokens.take (endIndex tokens + 1)) :
    (ts.drop pos).find? (·.kind = .endOfFile) = tokens[endIndex tokens]? := by
  obtain ⟨t, rest, hdrop, hk⟩ := drop_endIndex hlt
  have hget : tokens[endIndex tokens] = t := by
    rw [List.drop_eq_getElem_cons hlt] at hdrop
    exact (List.cons.inj hdrop).1
  have hsplit : ts.drop pos =
      (tokens.take (endIndex tokens)).drop pos ++ t :: ts.drop (endIndex tokens + 1) := by
    conv_lhs => rw [← List.take_append_drop (endIndex tokens + 1) ts, htake,
      List.take_succ_eq_append_getElem hlt, hget, List.append_assoc]
    rw [List.drop_append_of_le_length (by rw [List.length_take]; omega)]
    rfl
  have hnone : ((tokens.take (endIndex tokens)).drop pos).find? (·.kind = .endOfFile) = none := by
    rw [List.find?_eq_none]
    intro u hu
    simpa using kind_ne_of_mem_take (List.mem_of_mem_drop hu)
  rw [hsplit, List.find?_append, hnone, Option.none_or, List.find?_cons_of_pos (by simpa using hk),
    List.getElem?_eq_getElem hlt, hget]

/-- The next end-of-file token of a sound session is the first one of all. -/
lemma fileEnd_eq (h : s.Sound) :
    s.tokens[endIndex s.tokens]? = some s.fileEnd ∧ s.fileEnd.kind = .endOfFile := by
  have hfind := find?_of_take h.pos_le h.endIndex_lt rfl
  have hlt := h.endIndex_lt
  rw [List.getElem?_eq_getElem hlt] at hfind ⊢
  have heq : s.fileEnd = s.tokens[endIndex s.tokens] := by rw [fileEnd, hfind]; rfl
  have hkind := List.find?_some hfind
  exact ⟨by rw [heq], by simpa [heq] using hkind⟩

/-! ## One reading -/

section Read

variable {α : Type} {r : Rule α} {n : Nat}

/-- **Reading by a rule** moves a session by the tokens that the rule takes. -/
lemma read_of_rest (hle : n ≤ s.ahead.length) (hrest : (r s.ahead).rest = s.ahead.drop n) :
    s.read r = ((match r s.ahead with
      | .ok a _ => .ok a
      | .fail m _ => .error (s.locate m)), { s with pos := s.pos + n }) := by
  have hpos : s.pos + (s.ahead.length - (r s.ahead).rest.length) = s.pos + n := by
    rw [hrest, List.length_drop]
    omega
  unfold read
  cases hr : r s.ahead <;> simp only [hr] at hpos ⊢ <;> rw [hpos]

/-- A reading succeeds if its rule does. -/
lemma read_eq_ok {a : α} : (s.read r).1 = .ok a ↔ ∃ rest, r s.ahead = .ok a rest := by
  unfold read
  cases r s.ahead <;> simp

/-- A session stays sound as it moves among the tokens ahead. -/
lemma Sound.move (h : s.Sound) (hn : n ≤ s.ahead.length) :
    ({ s with pos := s.pos + n } : Session).Sound := by
  refine ⟨?_, h.endIndex_lt⟩
  have := h.pos_le
  rw [length_ahead h] at hn
  show s.pos + n ≤ endIndex s.tokens
  omega

/-- A session stays sound as it reads. -/
lemma Sound.read (h : s.Sound) (hr : r.Shortsighted) : (s.read r).2.Sound := by
  obtain ⟨n, hn⟩ := hr s.ahead
  rw [read_of_rest hn.le_length hn.rest_eq]
  exact h.move hn.le_length

/-- Reading does not change the tokens. -/
lemma tokens_read (s : Session) (r : Rule α) : (s.read r).2.tokens = s.tokens := by
  unfold Session.read
  cases r s.ahead <;> rfl

/-- Reading does not move back. -/
lemma pos_le_read (s : Session) (r : Rule α) : s.pos ≤ (s.read r).2.pos := by
  unfold Session.read
  cases r s.ahead <;> exact Nat.le_add_right _ _

end Read

/-! ## Calls -/

/-- What a session can be asked for. -/
inductive Call where
  | program | library
deriving DecidableEq

/-- What a session answers. -/
inductive Answer where
  | program (result : Except SyntaxError Program)
  | library (result : Except SyntaxError (List Function))

/-- Whether a call has succeeded. -/
def Answer.isOk : Answer → Bool
  | program result => result.isOk
  | library result => result.isOk

/-- Makes a call. -/
def call (s : Session) : Call → Answer × Session
  | .program => (.program s.program.1, s.program.2)
  | .library => (.library s.library.1, s.library.2)

/-- Makes calls, one after the other. -/
def run (s : Session) : List Call → List Answer × Session
  | [] => ([], s)
  | c :: cs => ((s.call c).1 :: ((s.call c).2.run cs).1, ((s.call c).2.run cs).2)

/-- A call does not change the tokens. -/
lemma tokens_call (s : Session) (c : Call) : (s.call c).2.tokens = s.tokens := by
  cases c <;> exact tokens_read s _

/-- A call does not move back. -/
lemma pos_le_call (s : Session) (c : Call) : s.pos ≤ (s.call c).2.pos := by
  cases c <;> exact pos_le_read s _

/-- **No call gets past the end of the file.** -/
lemma Sound.call (h : s.Sound) (c : Call) : (s.call c).2.Sound := by
  cases c with
  | program => exact Sound.read h (programRule_shortsighted s.file)
  | library => exact Sound.read h libraryRule_shortsighted

/-- Calls in a row do not move back. -/
lemma pos_le_run (s : Session) (cs : List Call) : s.pos ≤ (s.run cs).2.pos := by
  induction cs generalizing s with
  | nil => exact Nat.le_refl _
  | cons c cs ih => exact Nat.le_trans (pos_le_call s c) (ih (s.call c).2)

/-! ## Nothing left to read -/

/-- A session that stands at the end of the file. -/
def Exhausted (s : Session) : Prop := s.ahead = []

/-- A rule that succeeds only at the end of the file leaves nothing to read. -/
lemma exhausted_of_read {α : Type} {r : Rule α} (h : s.Sound) (hr : r.Shortsighted)
    (hend : ∀ ⦃ts a rest⦄, r ts = .ok a rest → peek rest = .endOfFile)
    (hok : (s.read r).1.isOk = true) : (s.read r).2.Exhausted := by
  obtain ⟨n, hn⟩ := hr s.ahead
  have hsound := h.move hn.le_length
  rw [read_of_rest hn.le_length hn.rest_eq] at hok ⊢
  cases hreply : r s.ahead with
  | fail m rest => simp [hreply, Except.isOk, Except.toBool] at hok
  | ok a rest =>
    have hrest : rest = s.ahead.drop n := by
      have := hn.rest_eq
      rwa [hreply] at this
    have hnil := eq_nil_of_peek (hrest ▸ hend hreply)
    have hlen := congrArg List.length hnil
    rw [List.length_drop, List.length_nil, length_ahead h] at hlen
    refine List.length_eq_zero_iff.1 ?_
    rw [length_ahead hsound]
    show endIndex s.tokens - (s.pos + n) = 0
    omega

/-- A program is read up to the end of the file. -/
lemma peek_of_programRule {file : String} {ts rest : List Token} {p : Program}
    (h : programRule file ts = .ok p rest) : peek rest = .endOfFile := by
  simp only [programRule, Rule.bind_eq_ok, Rule.next_bind] at h
  obtain ⟨is, _, -, fs, mid, -, h⟩ := h
  split at h
  · simp only [Rule.bind_eq_ok, Rule.next_bind] at h
    obtain ⟨m, mid', -, h⟩ := h
    split at h
    · next hpeek =>
      obtain ⟨-, rfl⟩ := Reply.ok.inj h
      exact hpeek
    · simp [Rule.expected, Rule.fault] at h
  · simp [Rule.expected, Rule.fault] at h

/-- A library is read up to the end of the file. -/
lemma peek_of_libraryRule {ts rest : List Token} {fs : List Function}
    (h : libraryRule ts = .ok fs rest) : peek rest = .endOfFile := by
  simp only [libraryRule, Rule.bind_eq_ok] at h
  obtain ⟨items, mid, hmany, h⟩ := h
  obtain ⟨-, rfl⟩ := Reply.ok.inj h
  simpa using Rule.starts_of_many libraryItems_paced hmany

/-- **After a success nothing is left to read.** -/
lemma exhausted_of_isOk (h : s.Sound) {c : Call} (hok : (s.call c).1.isOk = true) :
    (s.call c).2.Exhausted := by
  cases c with
  | program =>
    exact exhausted_of_read h (programRule_shortsighted s.file)
      (fun _ _ _ => peek_of_programRule) hok
  | library =>
    exact exhausted_of_read h libraryRule_shortsighted (fun _ _ _ => peek_of_libraryRule) hok

/-- What a session answers at the end of the file `t`: there is no program, and a library of no
functions. -/
def exhaustedAnswer (t : Token) : Call → Answer
  | .program => .program (.error ⟨.expected "'main' function" .endOfFile, t.file, t.span⟩)
  | .library => .library (.ok [])

/-- At the end of the file a call changes nothing, and its answer is known. -/
lemma call_of_exhausted (h : s.Exhausted) (c : Call) :
    s.call c = (exhaustedAnswer s.fileEnd c, s) := by
  have h' : s.ahead = [] := h
  cases c with
  | program =>
    have hread : s.program =
        (.error (s.locate ⟨.expected "'main' function" .endOfFile, none⟩), s) := by
      rw [program, Session.read, h']
      rfl
    rw [call, hread]
    rfl
  | library =>
    have hread : s.library = (.ok [], s) := by
      rw [library, Session.read, h']
      rfl
    rw [call, hread]
    rfl

/-- **At the end of the file all further calls are answered alike.** -/
lemma run_of_exhausted (h : s.Exhausted) (cs : List Call) :
    s.run cs = (cs.map (exhaustedAnswer s.fileEnd), s) := by
  induction cs with
  | nil => rfl
  | cons c cs ih => rw [run, call_of_exhausted h, ih, List.map_cons]

end Idyl.Session
