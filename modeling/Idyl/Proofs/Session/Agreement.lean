import Mathlib
import Idyl.Proofs.Session.Calls

/-!
# Sessions look one token ahead

What a session answers, and where it gets to, is decided by the tokens in front of the place it gets
to, the token there and the one after it, and never by a token behind the end of the file.  So two
sessions over lists that agree that far give the same answers and get to the same place.

## Main results

* `Idyl.Session.read_of_take` — one reading.
* `Idyl.Session.run_of_take` — calls, one after the other.
* `Idyl.Session.run_of_agree` — sessions over two lists of tokens.
-/

set_option autoImplicit false

namespace Idyl.Session

/-- How many tokens a session looks at that gets to the position `k`: one behind the position, but
none behind the end of the file. -/
def seen (tokens : List Token) (k : Nat) : Nat := min (k + 1) (endIndex tokens) + 1

/-- Further on, no less has been seen. -/
lemma seen_mono {tokens : List Token} {k l : Nat} (h : k ≤ l) : seen tokens k ≤ seen tokens l := by
  unfold seen
  omega

variable {s s' : Session} {n : Nat}

/-! ## What stays the same -/

/-- The first tokens ahead, among all tokens. -/
lemma take_ahead (s : Session) (n : Nat) :
    s.ahead.take n = ((s.tokens.take (s.pos + n)).drop s.pos).takeWhile (·.kind ≠ .endOfFile) := by
  rw [ahead, List.take_takeWhile, List.take_drop]

/-- The name of the file is told by the first token. -/
lemma file_of_take {m : Nat} (h : s'.tokens.take (m + 1) = s.tokens.take (m + 1)) :
    s'.file = s.file := by
  unfold file
  cases hts : s.tokens with
  | nil =>
    rw [hts] at h
    rw [eq_nil_of_take h]
  | cons t rest =>
    rw [hts] at h
    obtain ⟨rest', hts', -⟩ := eq_cons_of_take h
    rw [hts']
    rfl

/-- Sessions that agree up to the end of the file have the same end of file. -/
lemma fileEnd_of_take (h : s.Sound) (hpos : s'.pos = s.pos)
    (htake : s'.tokens.take (endIndex s.tokens + 1) = s.tokens.take (endIndex s.tokens + 1)) :
    s'.fileEnd = s.fileEnd := by
  have hlt := h.endIndex_lt
  rw [fileEnd, fileEnd, hpos, find?_of_take h.pos_le hlt htake, find?_of_take h.pos_le hlt rfl,
    List.getElem?_eq_getElem hlt]
  rfl

/-- A session that takes all tokens that are ahead sees the end of the file. -/
lemma fileEnd_of_drop (h : s.Sound) (hnil : s.ahead.drop n = []) (hpos : s'.pos = s.pos)
    (htake : s'.tokens.take (seen s.tokens (s.pos + n)) =
      s.tokens.take (seen s.tokens (s.pos + n))) :
    s'.fileEnd = s.fileEnd := by
  have hlen := congrArg List.length hnil
  rw [List.length_drop, length_ahead h, List.length_nil] at hlen
  have hseen : seen s.tokens (s.pos + n) = endIndex s.tokens + 1 := by
    unfold seen
    omega
  exact fileEnd_of_take h hpos (hseen ▸ htake)

/-- Sessions that agree on what is seen on the way to `n` tokens further have the same tokens ahead,
up to two behind these. -/
lemma take_ahead_of_take (h : s.Sound) (hn : n ≤ s.ahead.length) (hpos : s'.pos = s.pos)
    (htake : s'.tokens.take (seen s.tokens (s.pos + n)) =
      s.tokens.take (seen s.tokens (s.pos + n))) :
    s'.ahead.take (n + 2) = s.ahead.take (n + 2) := by
  have hlen := length_ahead h
  have hle := h.pos_le
  by_cases hk : s.pos + n + 1 ≤ endIndex s.tokens
  · have hseen : seen s.tokens (s.pos + n) = s.pos + (n + 2) := by
      unfold seen
      omega
    rw [hseen] at htake
    rw [take_ahead, take_ahead, hpos, htake]
  · -- All tokens are taken, so the token behind them is the end of the file in both sessions.
    have hseen : seen s.tokens (s.pos + n) = s.pos + (n + 1) := by
      unfold seen
      omega
    rw [hseen] at htake
    have heq : s'.ahead.take (n + 1) = s.ahead := by
      rw [take_ahead, hpos, htake, ← take_ahead, List.take_of_length_le (by omega)]
    have hlen' : s'.ahead.length ≤ n := by
      have hmin := congrArg List.length heq
      rw [List.length_take] at hmin
      omega
    rw [List.take_of_length_le (by omega)] at heq
    rw [heq]

/-! ## Readings and calls -/

/-- **One reading** sees as much as the place it gets to tells. -/
lemma read_of_take {α : Type} {r : Rule α} (h : s.Sound) (hr : r.Shortsighted)
    (hpos : s'.pos = s.pos)
    (htake : s'.tokens.take (seen s.tokens (s.read r).2.pos) =
      s.tokens.take (seen s.tokens (s.read r).2.pos)) :
    (s'.read r).1 = (s.read r).1 ∧ (s'.read r).2.pos = (s.read r).2.pos := by
  obtain ⟨n, hn⟩ := hr s.ahead
  have hread := read_of_rest hn.le_length hn.rest_eq
  rw [hread] at htake ⊢
  have hahead := take_ahead_of_take h hn.le_length hpos htake
  have halike := hn.alike hahead
  have hle' : n ≤ s'.ahead.length := by
    have hlen := congrArg List.length hahead
    have hle := hn.le_length
    rw [List.length_take, List.length_take] at hlen
    omega
  have hrest' : (r s'.ahead).rest = s'.ahead.drop n := by
    rw [halike]
    cases r s.ahead <;> rfl
  rw [read_of_rest hle' hrest', halike]
  refine ⟨?_, congrArg (· + n) hpos⟩
  cases hreply : r s.ahead with
  | ok a rest => rfl
  | fail m rest =>
    obtain ⟨f, t?⟩ := m
    cases t? with
    | some t => rfl
    | none =>
      have hnil : s.ahead.drop n = [] := by
        rw [← hn.rest_eq, hreply]
        exact hn.atEnd hreply
      have hfile : s'.fileEnd = s.fileEnd := fileEnd_of_drop h hnil hpos htake
      show Except.error (s'.locate ⟨f, none⟩) = Except.error (s.locate ⟨f, none⟩)
      rw [locate, locate, hfile]

/-- A call depends on nothing but the tokens that it has seen. -/
lemma call_of_take (h : s.Sound) (c : Call) (hpos : s'.pos = s.pos)
    (htake : s'.tokens.take (seen s.tokens (s.call c).2.pos) =
      s.tokens.take (seen s.tokens (s.call c).2.pos)) :
    (s'.call c).1 = (s.call c).1 ∧ (s'.call c).2.pos = (s.call c).2.pos := by
  cases c with
  | program =>
    have hfile : s'.file = s.file := file_of_take htake
    have hread := read_of_take h (programRule_shortsighted s.file) hpos htake
    rw [call, program, hfile]
    exact ⟨congrArg Answer.program hread.1, hread.2⟩
  | library =>
    have hread := read_of_take h libraryRule_shortsighted hpos htake
    exact ⟨congrArg Answer.library hread.1, hread.2⟩

/-- **Calls, one after the other**, see as much as the place they get to tells. -/
lemma run_of_take (h : s.Sound) (cs : List Call) (hpos : s'.pos = s.pos)
    (htake : s'.tokens.take (seen s.tokens (s.run cs).2.pos) =
      s.tokens.take (seen s.tokens (s.run cs).2.pos)) :
    (s'.run cs).1 = (s.run cs).1 ∧ (s'.run cs).2.pos = (s.run cs).2.pos := by
  induction cs generalizing s s' with
  | nil => exact ⟨rfl, hpos⟩
  | cons c cs ih =>
    have hle : (s.call c).2.pos ≤ (s.run (c :: cs)).2.pos := pos_le_run _ cs
    have hcall := call_of_take h c hpos (take_of_take htake (seen_mono hle))
    have htail := ih (h.call c) hcall.2 (by rw [tokens_call, tokens_call]; exact htake)
    simp only [run]
    rw [hcall.1, htail.1]
    exact ⟨rfl, htail.2⟩

/-! ## Two lists of tokens -/

/-- Completing a list of tokens keeps those that it has. -/
lemma getElem?_complete {tokens : List Token} {i : Nat} {t : Token} (h : tokens[i]? = some t) :
    (complete tokens)[i]? = some t := by
  unfold complete
  cases hlast : tokens.getLast? with
  | none => simp [List.getLast?_eq_none_iff.1 hlast] at h
  | some u =>
    by_cases hu : u.kind = .endOfFile
    · simpa [hu] using h
    · simp only [hu, if_false]
      exact List.getElem?_append_left (List.getElem?_eq_some_iff.1 h).1 ▸ h

/-- **A session sees no more than one token behind the place it gets to, and none behind the end of
the file.**  Whatever calls are made over some tokens, over any other tokens that are the same up to
there they give the same programs, functions and errors, and get to the same place.  A token of the
other list may also be the end of the file that completes it.

**Proof sketch.**  By induction over the calls, with what one reading sees
(`Idyl.Session.read_of_take`); this in turn is what `Idyl.Rule.StopsAt` says of the rules. -/
theorem run_of_agree (tokens tokens' : List Token) (cs : List Call)
    (h : ∀ i ≤ min (((ofTokens tokens).run cs).2.pos + 1) (endIndex (complete tokens)),
      tokens'[i]? = (complete tokens)[i]? ∨ (complete tokens')[i]? = (complete tokens)[i]?) :
    ((ofTokens tokens').run cs).1 = ((ofTokens tokens).run cs).1 ∧
      ((ofTokens tokens').run cs).2.pos = ((ofTokens tokens).run cs).2.pos := by
  have hsound := sound_ofTokens tokens
  refine run_of_take hsound cs rfl (List.ext_getElem? fun i => ?_)
  by_cases hi : i < seen (ofTokens tokens).tokens ((ofTokens tokens).run cs).2.pos
  · rw [List.getElem?_take_of_lt hi, List.getElem?_take_of_lt hi]
    have hlt : i < (complete tokens).length :=
      Nat.lt_of_le_of_lt (by unfold seen at hi; omega) hsound.endIndex_lt
    rcases h i (Nat.lt_succ_iff.1 hi) with heq | heq
    · rw [List.getElem?_eq_getElem hlt] at heq
      exact (getElem?_complete heq).trans (List.getElem?_eq_getElem hlt).symm
    · exact heq
  · rw [List.getElem?_take_eq_none (Nat.le_of_not_lt hi),
      List.getElem?_take_eq_none (Nat.le_of_not_lt hi)]

/-- The tokens `use m use 5 use`, and others behind them. -/
def brokenImports (behind : List TokenKind) : List Token :=
  (.keyword .use :: .identifier "m" :: .keyword .use :: .integer "5" :: .keyword .use :: behind).map
    fun k => ⟨k, "", {}, "a.idyl"⟩

/-- Two calls stop at the `5`; nothing behind the word after it is looked at, not even whether the
file ends there. -/
theorem run_of_agree_brokenImports :
    ((ofTokens (brokenImports [.punct .semi, .keyword .main])).run [.program, .library]).2.pos = 3 ∧
      ((ofTokens (brokenImports [.endOfFile, .identifier "m"])).run [.program, .library]).1 =
        ((ofTokens (brokenImports [.punct .semi, .keyword .main])).run [.program, .library]).1 ∧
      ((ofTokens (brokenImports [.endOfFile, .identifier "m"])).run [.program, .library]).2.pos =
        3 := by
  have hpos : ((ofTokens (brokenImports [.punct .semi, .keyword .main])).run
      [.program, .library]).2.pos = 3 := rfl
  have hagree := run_of_agree (brokenImports [.punct .semi, .keyword .main])
    (brokenImports [.endOfFile, .identifier "m"]) [.program, .library] (by decide)
  exact ⟨hpos, hagree.1, hagree.2.trans hpos⟩

end Idyl.Session
