import Mathlib
import Idyl.Proofs.Session.Simulation

/-!
# Cursors through whole sessions

Whatever tokens a cursor is set on and whatever calls are made, successful or not, the cursor
answers as the session does.  On its way it never looks at a token that is not there, it only moves
forward and never past the end of the file, it never goes too deep and comes back out of every
phrase.  Once a call has succeeded it stands at the end of the file and stays there.

## Main results

* `Idyl.Cursor.run_eq` — a cursor answers as a session does.
* `Idyl.Session.atFileEnd_of_isOk` — what is answered after a success.
* `Idyl.Cursor.run_invariant` — the invariant of all sessions.
-/

set_option autoImplicit false

namespace Idyl

open Session (Call Answer)

/-! ## Cursors and sessions -/

namespace Cursor

variable {c : Cursor}

/-- A descent that follows a rule does to a cursor what reading by the rule does to a session. -/
lemma read_of_followsAt {α : Type} {x : Descent α} {r : Rule α} (hc : c.Orderly)
    (h : Descent.FollowsAt c x r) :
    ∃ c', x c = some ((c.session.read r).1, c') ∧ c.Leads c' ∧
      c'.session = (c.session.read r).2 := by
  obtain ⟨c', hx, hleads, hrest⟩ := h
  have hlen : c.ahead.length = Session.endIndex c.tokens - c.pos := Session.length_ahead hc.sound
  have hlen' : c'.ahead.length = Session.endIndex c'.tokens - c'.pos :=
    Session.length_ahead hleads.orderly.sound
  have hend : c'.pos ≤ Session.endIndex c'.tokens := hleads.orderly.sound.pos_le
  have hpos : c'.pos = c.pos + (c.ahead.length - (r c.ahead).rest.length) := by
    have := hleads.pos_le
    rw [hleads.tokens_eq] at hlen' hend
    rw [← hrest, hlen, hlen']
    omega
  have hfst : (c.session.read r).1 = Descent.outcome c (r c.ahead) := by
    unfold Session.read ahead
    cases r c.session.ahead <;> rfl
  have hsnd : (c.session.read r).2 =
      ⟨c.tokens, c.pos + (c.ahead.length - (r c.ahead).rest.length)⟩ := by
    unfold Session.read ahead
    cases r c.session.ahead <;> rfl
  rw [hfst, hsnd]
  exact ⟨c', hx, hleads, by rw [session, hleads.tokens_eq, hpos]⟩

/-- A call. -/
lemma call_eq (hc : c.Orderly) (hd : c.depth = 0) (x : Call) :
    ∃ c', c.call x = some ((c.session.call x).1, c') ∧ c.Leads c' ∧
      c'.session = (c.session.call x).2 := by
  cases x with
  | program =>
    obtain ⟨c', hx, hleads, hsession⟩ :=
      read_of_followsAt hc (Descent.program_follows (Session.fileOf c.tokens) hc hd)
    exact ⟨c', by rw [call, hx]; rfl, hleads, hsession⟩
  | library =>
    obtain ⟨c', hx, hleads, hsession⟩ :=
      read_of_followsAt hc (Descent.library_follows hc hd)
    exact ⟨c', by rw [call, hx]; rfl, hleads, hsession⟩

/-- **Calls, one after the other.**  A cursor always answers, and answers as a session does. -/
lemma run_eq (hc : c.Orderly) (hd : c.depth = 0) (xs : List Call) :
    ∃ c', c.run xs = some ((c.session.run xs).1, c') ∧ c.Leads c' ∧
      c'.session = (c.session.run xs).2 := by
  induction xs generalizing c with
  | nil => exact ⟨c, rfl, hc.leads, rfl⟩
  | cons x xs ih =>
    obtain ⟨c₁, hcall, hleads₁, hsession₁⟩ := call_eq hc hd x
    obtain ⟨c₂, hrun, hleads₂, hsession₂⟩ := ih hleads₁.orderly (hleads₁.depth_eq.trans hd)
    rw [hsession₁] at hrun hsession₂
    refine ⟨c₂, ?_, hleads₁.trans hleads₂, hsession₂⟩
    simp only [run, hcall, hrun, Session.run, Option.bind_eq_bind, Option.bind_some]
    rfl

end Cursor

/-! ## After a success -/

namespace Session

variable {s : Session}

/-- How calls are answered at the end `t` of a file: there is no program, and a library has no
functions. -/
def AtFileEnd (t : Token) : Call → Answer → Prop
  | .program, .program (.error e) =>
    e.fault.message = "expected 'main' function, found end of file" ∧ e.file = t.file ∧
      e.span = t.span
  | .library, .library (.ok functions) => functions = []
  | _, _ => False

/-- The answer behind the last token lies at the end of the file. -/
lemma atFileEnd_exhaustedAnswer (t : Token) (x : Call) : AtFileEnd t x (exhaustedAnswer t x) := by
  cases x with
  | program => exact ⟨rfl, rfl, rfl⟩
  | library => rfl

/-- **After a success** the token to be read is an end of file, and all further calls are answered
so.  By induction over the calls in front of the one that succeeds. -/
lemma atFileEnd_of_isOk (h : s.Sound) {xs : List Call} {i : Nat} {a : Answer}
    (ha : (s.run xs).1[i]? = some a) (hok : a.isOk = true) :
    ∃ t, (s.run xs).2.tokens[(s.run xs).2.pos]? = some t ∧ t.kind = .endOfFile ∧
      List.Forall₂ (AtFileEnd t) (xs.drop (i + 1)) ((s.run xs).1.drop (i + 1)) := by
  induction xs generalizing s i with
  | nil => cases ha
  | cons x xs ih =>
    cases i with
    | zero =>
      obtain rfl : (s.call x).1 = a := Option.some.inj ha
      have hs := h.call x
      have hend := exhausted_of_isOk h hok
      obtain ⟨hget, hkind⟩ := fileEnd_eq hs
      have hpos : (s.call x).2.pos = endIndex (s.call x).2.tokens := by
        have hlen := length_ahead hs
        have hle := hs.pos_le
        rw [show (s.call x).2.ahead = [] from hend, List.length_nil] at hlen
        omega
      refine ⟨(s.call x).2.fileEnd, ?_, hkind, ?_⟩
      · simp only [run, run_of_exhausted hend]
        rw [hpos, hget]
      · simp only [run, run_of_exhausted hend, List.drop_succ_cons, List.drop_zero]
        exact List.forall₂_map_right_iff.2 (List.forall₂_same.2 fun y _ =>
          atFileEnd_exhaustedAnswer _ y)
    | succ i => exact ih (h.call x) ha

end Session

/-! ## The invariant -/

/-- **The invariant of all sessions.**  Set on any tokens, and asked for programs and libraries in
any order, a cursor always gives answers, and gives those of the session.  In between it is at depth
zero.  Wherever it has been, it was no deeper than the greatest depth, at a token that is there, and
not behind an end of file; and it has never moved back.  After a call that succeeded it stands at an
end of file, where there is no program, and a library has no functions.

**Proof sketch.**  The cursor follows the rules of the grammar (`Idyl.Descent.program_follows`,
`Idyl.Descent.library_follows`) and is orderly throughout.  After a success nothing is left for the
rules to read (`Idyl.Session.exhausted_of_isOk`). -/
theorem Cursor.run_invariant (tokens : List Token) (calls : List Call) :
    ∃ answers c, (Cursor.ofTokens tokens).run calls = some (answers, c) ∧
      (Session.ofTokens tokens).run calls = (answers, c.session) ∧
      c.tokens = Session.complete tokens ∧ c.depth = 0 ∧
      (∀ x ∈ c.places, x.depth ≤ maxDepth ∧ x.pos < c.tokens.length ∧
        ∀ t ∈ c.tokens.take x.pos, t.kind ≠ .endOfFile) ∧
      c.places.Pairwise (fun later earlier => earlier.pos ≤ later.pos) ∧
      ∀ (i : Nat) (a : Answer), answers[i]? = some a → a.isOk = true →
        ∃ t, c.tokens[c.pos]? = some t ∧ t.kind = .endOfFile ∧
          List.Forall₂ (Session.AtFileEnd t) (calls.drop (i + 1)) (answers.drop (i + 1)) := by
  obtain ⟨c, hrun, hleads, hsession⟩ :=
    Cursor.run_eq (Cursor.orderly_ofTokens tokens) rfl calls
  have hstart : (Cursor.ofTokens tokens).session = Session.ofTokens tokens := rfl
  rw [hstart] at hrun hsession
  have hsound := hleads.orderly.sound
  refine ⟨_, c, hrun, by rw [hsession], hleads.tokens_eq, hleads.depth_eq, fun x hx => ?_,
    hleads.orderly.forward, fun i a ha hok => ?_⟩
  · have hpos : x.pos ≤ c.pos := by
      rcases List.mem_cons.1 hx with rfl | hx
      · exact Nat.le_refl _
      · exact (List.pairwise_cons.1 hleads.orderly.forward).1 x hx
    have hend : x.pos ≤ Session.endIndex c.tokens := Nat.le_trans hpos hsound.pos_le
    refine ⟨hleads.orderly.depth_le x hx, Nat.lt_of_le_of_lt hend hsound.endIndex_lt, ?_⟩
    intro t ht
    exact Session.kind_ne_of_mem_take (List.take_subset_take_left _ hend ht)
  · obtain ⟨t, hget, hkind, hlater⟩ :=
      Session.atFileEnd_of_isOk (Session.sound_ofTokens tokens) ha hok
    rw [← hsession] at hget
    exact ⟨t, hget, hkind, hlater⟩

/-- The tokens of `main() { }`, an end of file, and `use` behind it. -/
def endInTheMiddle : List Token :=
  [.keyword .main, .punct .lparen, .punct .rparen, .punct .lbrace, .punct .rbrace, .endOfFile,
   .keyword .use].map fun k => ⟨k, "", {}, "a.idyl"⟩

/-- There is no library, then there is a program, and then nothing is left. -/
theorem Cursor.run_invariant_endInTheMiddle :
    ∃ answers c, (Cursor.ofTokens endInTheMiddle).run [.library, .program, .program, .library] =
        some (answers, c) ∧
      answers.map Answer.isOk = [false, true, false, true] ∧ c.pos = 5 ∧ c.depth = 0 ∧
      ∃ t, c.tokens[c.pos]? = some t ∧ t.kind = .endOfFile ∧
        List.Forall₂ (Session.AtFileEnd t) [.program, .library] (answers.drop 2) := by
  obtain ⟨answers, c, hrun, hsession, -, hdepth, -, -, hlater⟩ :=
    Cursor.run_invariant endInTheMiddle [.library, .program, .program, .library]
  have hanswers := congrArg Prod.fst hsession
  have hpos : c.pos = 5 := (congrArg (fun x => x.2.pos) hsession).symm
  subst hanswers
  exact ⟨_, c, hrun, rfl, hpos, hdepth, hlater 1 _ rfl rfl⟩

end Idyl
