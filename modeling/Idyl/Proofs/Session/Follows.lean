import Mathlib
import Idyl.Proofs.Session.Descent

/-!
# Descents follow the rules of the grammar

A cursor among tokens that has not got past the end of the file has tokens ahead of it, and a
number of levels left.  From there, a descent into a phrase gives what the rule for the phrase gives
on these tokens with so many levels, and leaves the cursor, at the depth at which it was, where the
rule stops.

## Main definitions

* `Idyl.Cursor.Orderly` — what is kept by every move of a cursor.
* `Idyl.Descent.FollowsAt`, `Idyl.Descent.Follows` — a descent does what a rule does, from one
  cursor and from all cursors at some depth.

## Main results

* `Idyl.Descent.token_follows`, `Idyl.Descent.name_follows` — descents to one token.
* `Idyl.Descent.Follows.bind`, `Idyl.Descent.many_follows`, `Idyl.Descent.iterate_follows`,
  `Idyl.Descent.nested_follows` — descents put together.
-/

set_option autoImplicit false

namespace Idyl

/-! ## Orderly cursors -/

namespace Cursor

variable {c c' c'' : Cursor}

/-- What a cursor has to read, as a session. -/
def session (c : Cursor) : Session := ⟨c.tokens, c.pos⟩

/-- The tokens ahead of a cursor, up to the end of the file. -/
def ahead (c : Cursor) : List Token := c.session.ahead

/-- A cursor that has not got past the end of the file, has never been too deep, and has never
moved back. -/
structure Orderly (c : Cursor) : Prop where
  sound : c.session.Sound
  depth_le : ∀ x ∈ c.places, x.depth ≤ maxDepth
  forward : c.places.Pairwise fun later earlier => earlier.pos ≤ later.pos

/-- A cursor that has got from one place to another at the same depth. -/
structure Leads (c c' : Cursor) : Prop where
  orderly : c'.Orderly
  tokens_eq : c'.tokens = c.tokens
  depth_eq : c'.depth = c.depth
  pos_le : c.pos ≤ c'.pos

/-- A cursor leads to itself. -/
lemma Orderly.leads (h : c.Orderly) : c.Leads c := ⟨h, rfl, rfl, Nat.le_refl _⟩

/-- One move after the other. -/
lemma Leads.trans (h : c.Leads c') (h' : c'.Leads c'') : c.Leads c'' :=
  ⟨h'.orderly, h'.tokens_eq.trans h.tokens_eq, h'.depth_eq.trans h.depth_eq,
    Nat.le_trans h.pos_le h'.pos_le⟩

/-- A new cursor is orderly. -/
lemma orderly_ofTokens (tokens : List Token) : (ofTokens tokens).Orderly where
  sound := Session.sound_ofTokens tokens
  depth_le := by simp [places, ofTokens]
  forward := by simp [places, ofTokens]

/-- An orderly cursor may move on, and up to the greatest depth. -/
lemma Orderly.moveTo (h : c.Orderly) {pos depth : Nat} (hpos : c.pos ≤ pos)
    (hend : pos ≤ Session.endIndex c.tokens) (hdepth : depth ≤ maxDepth) :
    (c.moveTo pos depth).Orderly where
  sound := ⟨hend, h.sound.endIndex_lt⟩
  depth_le := List.forall_mem_cons.2 ⟨hdepth, h.depth_le⟩
  forward := by
    refine List.pairwise_cons.2 ⟨fun x hx => ?_, h.forward⟩
    rcases List.mem_cons.1 hx with rfl | hx
    · exact hpos
    · exact Nat.le_trans ((List.pairwise_cons.1 h.forward).1 x hx) hpos

/-- The end of the file is the same wherever the cursor is. -/
lemma Leads.locate_eq (hc : c.Orderly) (h : c.Leads c') (m : Misread) :
    c'.session.locate m = c.session.locate m := by
  have htokens : c'.session.tokens = c.session.tokens := h.tokens_eq
  have hend : some c'.session.fileEnd = some c.session.fileEnd := by
    rw [← (Session.fileEnd_eq h.orderly.sound).1, htokens, (Session.fileEnd_eq hc.sound).1]
  rw [Session.locate, Session.locate, Option.some.inj hend]

end Cursor

/-- What is read can be changed in the step behind. -/
lemma Rule.map_bind {α β γ : Type} (f : α → β) (r : Rule α) (g : β → Rule γ) (ts : List Token) :
    ((f <$> r) >>= g) ts = (r >>= fun a => g (f a)) ts := by
  cases hr : r ts with
  | ok a rest =>
    have hmap : (f <$> r) ts = .ok (f a) rest := Rule.bind_of_ok hr
    rw [Rule.bind_of_ok hr, Rule.bind_of_ok hmap]
  | fail m rest =>
    have hmap : (f <$> r) ts = .fail m rest := Rule.bind_of_fail hr
    rw [Rule.bind_of_fail hr, Rule.bind_of_fail hmap]

namespace Descent

variable {α β : Type} {c c' : Cursor} {d : Nat}

/-! ## Following a rule -/

/-- A reply of a rule as what a descent gives. -/
def outcome (c : Cursor) : Reply α → Except SyntaxError α
  | .ok a _ => .ok a
  | .fail m _ => .error (c.session.locate m)

/-- From a cursor, a descent gives what a rule gives on the tokens ahead, and leaves the cursor
where the rule stops, as deep as it was. -/
def FollowsAt (c : Cursor) (x : Descent α) (r : Rule α) : Prop :=
  ∃ c', x c = some (outcome c (r c.ahead), c') ∧ c.Leads c' ∧ c'.ahead = (r c.ahead).rest

/-- A descent follows a rule from all orderly cursors at some depth. -/
def Follows (d : Nat) (x : Descent α) (r : Rule α) : Prop :=
  ∀ ⦃c⦄, c.Orderly → c.depth = d → FollowsAt c x r

/-- After a success the second descent goes on. -/
lemma bind_of_ok {x : Descent α} {f : α → Descent β} {a : α} (h : x c = some (.ok a, c')) :
    (x >>= f) c = f a c' := by
  show (x c >>= fun y => ExceptT.bindCont f y.1 y.2) = f a c'
  rw [h]
  rfl

/-- After an error nothing goes on. -/
lemma bind_of_error {x : Descent α} {f : α → Descent β} {e : SyntaxError}
    (h : x c = some (.error e, c')) : (x >>= f) c = some (.error e, c') := by
  show (x c >>= fun y => ExceptT.bindCont f y.1 y.2) = _
  rw [h]
  rfl

/-- Only what is done from this cursor on matters. -/
lemma FollowsAt.congr {x x' : Descent α} {r r' : Rule α} (h : FollowsAt c x r)
    (hx : x' c = x c) (hr : r' c.ahead = r c.ahead) : FollowsAt c x' r' := by
  unfold FollowsAt
  rw [hx, hr]
  exact h

/-- **Descents in a row** follow rules in a row. -/
lemma FollowsAt.bind {x : Descent α} {r : Rule α} {f : α → Descent β} {g : α → Rule β}
    (hc : c.Orderly) (h : FollowsAt c x r)
    (hf : ∀ a c', c.Leads c' → r c.ahead = .ok a c'.ahead → FollowsAt c' (f a) (g a)) :
    FollowsAt c (x >>= f) (r >>= g) := by
  obtain ⟨c', hx, hleads, hrest⟩ := h
  cases hr : r c.ahead with
  | fail m rest =>
    rw [hr] at hx hrest
    refine ⟨c', ?_, hleads, ?_⟩
    · rw [bind_of_error hx, Rule.bind_of_fail hr]
      rfl
    · rw [Rule.bind_of_fail hr]
      exact hrest
  | ok a rest =>
    rw [hr] at hx hrest
    have hrest' : c'.ahead = rest := hrest
    obtain ⟨c'', hf', hleads', hrest''⟩ := hf a c' hleads (by rw [hr, hrest'])
    rw [hrest'] at hf' hrest''
    refine ⟨c'', ?_, hleads.trans hleads', ?_⟩
    · rw [bind_of_ok hx, Rule.bind_of_ok hr, hf']
      cases g a rest with
      | ok b rest' => rfl
      | fail m rest' => rw [outcome, outcome, hleads.locate_eq hc]
    · rw [Rule.bind_of_ok hr]
      exact hrest''

/-- **Descents in a row** follow rules in a row. -/
lemma Follows.bind {x : Descent α} {r : Rule α} {f : α → Descent β} {g : α → Rule β}
    (h : Follows d x r) (hf : ∀ a, Follows d (f a) (g a)) : Follows d (x >>= f) (r >>= g) := by
  intro c hc hd
  refine (h hc hd).bind hc fun a c' hleads _ => ?_
  exact hf a hleads.orderly (hleads.depth_eq.trans hd)

/-- A value follows a value. -/
lemma pure_follows (d : Nat) (a : α) : Follows d (pure a) (pure a) :=
  fun c hc _ => ⟨c, rfl, hc.leads, rfl⟩

/-- Changing what is read on both sides. -/
lemma Follows.map {x : Descent α} {r : Rule α} (h : Follows d x r) (f : α → β) :
    Follows d (f <$> x) (f <$> r) := by
  rw [map_eq_pure_bind, Rule.map_eq_bind]
  exact h.bind fun a => pure_follows d (f a)

/-- The same choice on both sides. -/
lemma Follows.ite {p : Prop} [Decidable p] {x y : Descent α} {r u : Rule α}
    (hx : Follows d x r) (hy : Follows d y u) :
    Follows d (if p then x else y) (if p then r else u) := by
  split
  · exact hx
  · exact hy

/-! ## One token -/

/-- At the end of the file a cursor stands at the end-of-file token; otherwise at the first token
ahead, behind which it may move. -/
lemma ahead_cases (hc : c.Orderly) :
    (c.ahead = [] ∧ c.tokens[c.pos]? = some c.session.fileEnd ∧
      c.session.fileEnd.kind = .endOfFile) ∨
    ∃ t rest, c.ahead = t :: rest ∧ c.tokens[c.pos]? = some t ∧ t.kind ≠ .endOfFile ∧
      c.Leads (c.moveTo (c.pos + 1) c.depth) ∧ (c.moveTo (c.pos + 1) c.depth).ahead = rest := by
  have hle : c.pos ≤ Session.endIndex c.tokens := hc.sound.pos_le
  have hlt : Session.endIndex c.tokens < c.tokens.length := hc.sound.endIndex_lt
  have hahead : c.ahead = (c.tokens.take (Session.endIndex c.tokens)).drop c.pos :=
    Session.ahead_eq hc.sound
  rcases Nat.eq_or_lt_of_le hle with heq | hpos
  · obtain ⟨hget, hkind⟩ := Session.fileEnd_eq hc.sound
    refine .inl ⟨?_, heq ▸ hget, hkind⟩
    rw [hahead, List.drop_eq_nil_iff, List.length_take]
    omega
  · have hmove : (c.moveTo (c.pos + 1) c.depth).Orderly :=
      hc.moveTo (Nat.le_succ _) hpos (hc.depth_le c.toPlace List.mem_cons_self)
    have hcons : c.ahead = c.tokens[c.pos] :: (c.moveTo (c.pos + 1) c.depth).ahead := by
      rw [hahead, List.drop_eq_getElem_cons (by rw [List.length_take]; omega), List.getElem_take]
      exact congrArg _ (Session.ahead_eq hmove.sound).symm
    refine .inr ⟨_, _, hcons, List.getElem?_eq_getElem (by omega), ?_,
      ⟨hmove, rfl, rfl, Nat.le_succ _⟩, rfl⟩
    exact Session.kind_ne_of_mem_ahead (hcons ▸ List.mem_cons_self)

/-- From every orderly cursor, a descent gives what is seen of the tokens ahead, and moves
nothing. -/
def Sees (x : Descent β) (see : List Token → β) : Prop :=
  ∀ ⦃c⦄, c.Orderly → x c = some (.ok (see c.ahead), c)

/-- What is seen can be changed. -/
lemma Sees.pure {x : Descent α} {see : List Token → α} (h : Sees x see) (f : α → β) :
    Sees (do let a ← x; pure (f a)) (fun ts => f (see ts)) := by
  intro c hc
  rw [bind_of_ok (h hc)]
  rfl

/-- A descent that first sees something follows a rule if it does so with what is seen. -/
lemma FollowsAt.look {x : Descent β} {see : List Token → β} {f : β → Descent α} {r : Rule α}
    (hc : c.Orderly) (hx : Sees x see) (h : FollowsAt c (f (see c.ahead)) r) :
    FollowsAt c (x >>= f) r :=
  h.congr (bind_of_ok (hx hc)) rfl

/-- The token at a cursor: the first one ahead, or the end of the file. -/
lemma tokenAt (hc : c.Orderly) :
    ∃ t, c.tokens[c.pos]? = some t ∧ c.ahead.head?.getD c.session.fileEnd = t ∧
      t.kind = peek c.ahead := by
  rcases ahead_cases hc with ⟨hnil, hget, hkind⟩ | ⟨t, rest, hcons, hget, -, -, -⟩
  · exact ⟨_, hget, by rw [hnil]; rfl, by rw [hnil]; exact hkind⟩
  · exact ⟨t, hget, by rw [hcons]; rfl, by rw [hcons]; rfl⟩

/-- The token at an orderly cursor is the first one ahead, or the end of the file. -/
lemma current_apply (hc : c.Orderly) :
    ∃ t, current c = some (.ok t, c) ∧ c.ahead.head?.getD c.session.fileEnd = t ∧
      t.kind = peek c.ahead := by
  obtain ⟨t, hget, hhead, hkind⟩ := tokenAt hc
  exact ⟨t, by rw [current, hget]; rfl, hhead, hkind⟩

/-- The kind at the cursor is the kind ahead. -/
lemma kind_sees : Sees kind peek := by
  intro c hc
  obtain ⟨t, hcurrent, -, hkind⟩ := current_apply hc
  rw [kind, bind_of_ok hcurrent, ← hkind]
  rfl

/-- Looking at the kind on both sides, from one cursor. -/
lemma FollowsAt.next {f : TokenKind → Descent α} {g : TokenKind → Rule α} (hc : c.Orderly)
    (h : FollowsAt c (f (peek c.ahead)) (g (peek c.ahead))) :
    FollowsAt c (kind >>= f) (Rule.next >>= g) :=
  FollowsAt.look hc kind_sees (h.congr rfl rfl)

/-- Looking at the kind on both sides. -/
lemma Follows.next {f : TokenKind → Descent α} {g : TokenKind → Rule α}
    (h : ∀ k, Follows d (f k) (g k)) : Follows d (kind >>= f) (Rule.next >>= g) :=
  fun _ hc hd => FollowsAt.next hc (h _ hc hd)

/-- The token behind the first one ahead. -/
lemma nextKind_apply (hc : c.Orderly) {t : Token} {rest : List Token} (h : c.ahead = t :: rest) :
    nextKind c = some (.ok (peek rest), c) := by
  rcases ahead_cases hc with ⟨hnil, -, -⟩ | ⟨u, rest', hcons, hget, -, hleads, hrest⟩
  · rw [hnil] at h
    cases h
  · obtain ⟨rfl, rfl⟩ := List.cons.inj (h.symm.trans hcons)
    have hlt : c.pos + 1 < c.tokens.length :=
      Nat.lt_of_le_of_lt hleads.orderly.sound.pos_le hleads.orderly.sound.endIndex_lt
    obtain ⟨u, hget', -, hkind⟩ := tokenAt hleads.orderly
    have hnext : c.tokens[c.pos + 1]? = some u := hget'
    rw [hrest] at hkind
    rw [nextKind, Nat.min_eq_left (by omega), hnext, ← hkind]
    rfl

/-! ### Faults -/

/-- A fault at an earlier token. -/
lemma failAt_follows (t : Token) (f : SyntaxFault) :
    Follows d (failAt t f : Descent α) (Rule.faultAt t f) :=
  fun c hc _ => ⟨c, rfl, hc.leads, rfl⟩

/-- A fault at the token ahead. -/
lemma fault_follows (f : SyntaxFault) : Follows d (fault f : Descent α) (Rule.fault f) := by
  intro c hc _
  obtain ⟨t, hcurrent, hhead, -⟩ := current_apply hc
  refine ⟨c, ?_, hc.leads, rfl⟩
  rw [fault, bind_of_ok hcurrent, ← hhead]
  rfl

/-- What is missing is told by the token ahead. -/
lemma expected_follows (what : String) :
    Follows d (expected what : Descent α) (Rule.expected what) := by
  intro c hc hd
  obtain ⟨t, hcurrent, -, hkind⟩ := current_apply hc
  refine (fault_follows (.expected what (peek c.ahead)) hc hd).congr ?_ rfl
  rw [expected, fault, bind_of_ok hcurrent, bind_of_ok hcurrent, hkind]

/-! ### Taking a token -/

/-- Where a rule takes the first token, so does a descent that takes it. -/
lemma advance_followsAt (hc : c.Orderly) {t : Token} {rest : List Token} (h : c.ahead = t :: rest)
    {r : Rule Token} (hr : r c.ahead = .ok t rest) : FollowsAt c advance r := by
  rcases ahead_cases hc with ⟨hnil, -, -⟩ | ⟨u, rest', hcons, hget, hkind, hleads, hrest⟩
  · rw [hnil] at h
    cases h
  · obtain ⟨rfl, rfl⟩ := List.cons.inj (h.symm.trans hcons)
    have hcurrent : current c = some (.ok t, c) := by rw [current, hget]; rfl
    refine ⟨c.moveTo (c.pos + 1) c.depth, ?_, hleads, ?_⟩
    · rw [advance, bind_of_ok hcurrent, if_neg hkind, hr]
      rfl
    · rw [hr, hrest]
      rfl

/-- Where a rule takes the first token and gives something made of it, so does a descent. -/
lemma take_followsAt (hc : c.Orderly) {t : Token} {rest : List Token} (h : c.ahead = t :: rest)
    {r : Rule α} {f : Token → α} (hr : r c.ahead = .ok (f t) rest) :
    FollowsAt c (do let u ← advance; pure (f u)) r := by
  have htoken : Rule.token t.kind "" c.ahead = .ok t rest := by rw [h, Rule.token, if_pos rfl]
  refine FollowsAt.congr ((advance_followsAt hc h htoken).bind hc (g := fun u => pure (f u))
    fun u c' hleads _ => pure_follows _ _ hleads.orderly rfl) rfl ?_
  rw [Rule.bind_of_ok htoken, hr]
  rfl

/-- A token is taken on both sides, if it does not end the file. -/
lemma token_follows {k : TokenKind} (hk : k ≠ .endOfFile) (place : String) :
    Follows d (token k place) (Rule.token k place) := by
  intro c hc hd
  refine FollowsAt.look hc kind_sees ?_
  cases hcons : c.ahead with
  | nil =>
    rw [if_neg (by rw [peek]; exact hk.symm)]
    exact (expected_follows _ hc hd).congr rfl (by rw [hcons]; rfl)
  | cons t rest =>
    by_cases heq : t.kind = k
    · rw [if_pos (show peek (t :: rest) = k from heq)]
      exact advance_followsAt hc hcons (by rw [hcons, Rule.token, if_pos heq])
    · rw [if_neg (show ¬ peek (t :: rest) = k from heq)]
      exact (expected_follows _ hc hd).congr rfl (by rw [hcons, Rule.token, if_neg heq])

/-- A mark is taken on both sides. -/
lemma mark_follows (p : Punct) (place : String) : Follows d (mark p place) (Rule.mark p place) :=
  token_follows (by simp) place

/-- A word is taken on both sides. -/
lemma word_follows (k : Keyword) (place : String) : Follows d (word k place) (Rule.word k place) :=
  token_follows (by simp) place

/-- Where a name is ahead, its token is. -/
lemma exists_of_nameOf? {ts : List Token} {n : String} (h : nameOf? (peek ts) = some n) :
    ∃ t rest, ts = t :: rest ∧ t.kind = .identifier n := by
  cases ts with
  | nil => cases h
  | cons t rest =>
    refine ⟨t, rest, rfl, ?_⟩
    rw [peek] at h
    cases hk : t.kind with
    | identifier m =>
      rw [hk] at h
      rw [Option.some.inj h]
    | _ => rw [hk] at h; cases h

/-- Where no name is ahead, one is missing. -/
lemma name_of_none {ts : List Token} (h : nameOf? (peek ts) = none) (what : String) :
    Rule.name what ts = Rule.expected what ts := by
  cases ts with
  | nil => rfl
  | cons t rest =>
    rw [peek] at h
    cases hk : t.kind with
    | identifier m => rw [hk] at h; cases h
    | _ => rw [Rule.name, hk]

/-- A name is taken on both sides. -/
lemma name_follows (what : String) : Follows d (name what) (Rule.name what) := by
  intro c hc hd
  refine FollowsAt.look hc kind_sees ?_
  cases hn : nameOf? (peek c.ahead) with
  | none => exact (expected_follows what hc hd).congr rfl (name_of_none hn what)
  | some n =>
    obtain ⟨t, rest, hcons, hk⟩ := exists_of_nameOf? hn
    refine take_followsAt hc hcons (f := fun t => (n, t.span)) ?_
    rw [hcons, Rule.name, hk]

/-- Looking at the token at the cursor. -/
lemma FollowsAt.current {f : Token → Descent α} {r : Rule α} (hc : c.Orderly)
    (h : ∀ t, c.ahead.head?.getD c.session.fileEnd = t → t.kind = peek c.ahead →
      FollowsAt c (f t) r) : FollowsAt c (current >>= f) r := by
  obtain ⟨t, hcurrent, hhead, hkind⟩ := current_apply hc
  exact (h t hhead hkind).congr (bind_of_ok hcurrent) rfl

/-- The name of a type is taken on both sides. -/
lemma typeName_follows : Follows d typeName typeRule := by
  intro c hc hd
  refine FollowsAt.current hc fun t hhead hkind => ?_
  cases hcons : c.ahead with
  | nil =>
    have heof : t.kind = .endOfFile := by rw [hkind, hcons]; rfl
    rw [heof]
    exact (expected_follows _ hc hd).congr rfl (by rw [hcons]; rfl)
  | cons u rest =>
    obtain rfl : u = t := by rw [hcons] at hhead; exact hhead
    cases hty : tyOfKind? u.kind with
    | some type =>
      refine take_followsAt hc hcons (f := fun _ => (type, u)) ?_
      simp only [hcons, typeRule, hty]
    | none =>
      cases hk : u.kind with
      | identifier n =>
        refine (failAt_follows u (.unknownType n) hc hd).congr rfl ?_
        simp only [hcons, typeRule, hty]
        rw [hk]
        rfl
      | _ =>
        refine (expected_follows _ hc hd).congr rfl ?_
        simp only [hcons, typeRule, hty]
        rw [hk]

/-! ## Repetition and nesting -/

/-- There are no more rounds than tokens, and one. -/
lemma length_ahead_lt (hc : c.Orderly) : c.ahead.length < c.tokens.length + 1 := by
  have hlen : c.ahead.length = Session.endIndex c.tokens - c.pos := Session.length_ahead hc.sound
  have hlt : Session.endIndex c.tokens < c.tokens.length := hc.sound.endIndex_lt
  omega

/-- **Phrases one after the other**, in more rounds than there are tokens ahead. -/
lemma manyWithin_follows {starts : List Token → Bool} {r : Rule α} (hp : Rule.Paced starts r)
    {test : Descent Bool} (ht : Sees test starts) {x : Descent α} (hx : Follows d x r)
    {rounds : Nat} (hc : c.Orderly) (hd : c.depth = d) (hlt : c.ahead.length < rounds) :
    FollowsAt c (manyWithin test x rounds) (Rule.many starts r) := by
  induction rounds generalizing c with
  | zero => omega
  | succ rounds ih =>
    refine FollowsAt.look hc ht ?_
    cases hstart : starts c.ahead with
    | false => exact (pure_follows d [] hc hd).congr rfl (Rule.many_of_false hstart)
    | true =>
      refine FollowsAt.congr ?_ rfl (Rule.many_of_true hp hstart)
      refine (hx hc hd).bind hc fun a c' hleads ha => ?_
      have hd' := hleads.depth_eq.trans hd
      have hlt' : c'.ahead.length < rounds :=
        Nat.lt_of_lt_of_le (hp.shrinking hstart ha) (Nat.le_of_lt_succ hlt)
      refine (ih hleads.orderly hd' hlt').bind hleads.orderly fun as c'' hleads' _ => ?_
      exact pure_follows d (a :: as) hleads'.orderly (hleads'.depth_eq.trans hd')

/-- Phrases are repeated equally often on both sides. -/
lemma many_follows {starts : List Token → Bool} {r : Rule α} (hp : Rule.Paced starts r)
    {test : Descent Bool} (ht : Sees test starts) {x : Descent α} (hx : Follows d x r) :
    Follows d (many test x) (Rule.many starts r) :=
  fun _ hc hd => manyWithin_follows hp ht hx hc hd (length_ahead_lt hc)

/-- One turn, from a phrase to a larger one if there is a rule for it. -/
structure Turns (d : Nat) (turn : α → Descent (Option α))
    (step : α → TokenKind → Option (Rule α)) : Prop where
  none : ∀ ⦃a c⦄, c.Orderly → step a (peek c.ahead) = .none → turn a c = some (.ok .none, c)
  some : ∀ ⦃a r c⦄, c.Orderly → c.depth = d → step a (peek c.ahead) = .some r →
    FollowsAt c (turn a) (Option.some <$> r)

/-- **Going on from a phrase to a larger one**, in more rounds than there are tokens ahead. -/
lemma iterateWithin_follows {step : α → TokenKind → Option (Rule α)} (hstep : Rule.Advancing step)
    {turn : α → Descent (Option α)} (ht : Turns d turn step) {rounds : Nat} (a : α)
    (hc : c.Orderly) (hd : c.depth = d) (hlt : c.ahead.length < rounds) :
    FollowsAt c (iterateWithin turn rounds a) (Rule.iterate step a) := by
  induction rounds generalizing c a with
  | zero => omega
  | succ rounds ih =>
    rw [iterateWithin]
    cases hs : step a (peek c.ahead) with
    | none =>
      exact (pure_follows d a hc hd).congr (bind_of_ok (ht.none hc hs)) (Rule.iterate_of_none hs)
    | some r =>
      have hrule : Rule.iterate step a c.ahead =
          ((some <$> r) >>= fun o => o.elim (pure a) (Rule.iterate step)) c.ahead := by
        rw [Rule.iterate_of_some hstep hs, Rule.map_bind]
        rfl
      refine FollowsAt.congr ((ht.some hc hd hs).bind hc fun o c' hleads ho => ?_) rfl hrule
      rw [Rule.map_eq_bind, Rule.bind_eq_ok] at ho
      obtain ⟨b, rest, hb, ho⟩ := ho
      obtain ⟨rfl, rfl⟩ := Reply.ok.inj ho
      have hlt' : c'.ahead.length < rounds :=
        Nat.lt_of_lt_of_le (hstep.shrinking hs hb) (Nat.le_of_lt_succ hlt)
      exact ih b hleads.orderly (hleads.depth_eq.trans hd) hlt'

/-- Steps are repeated equally often on both sides. -/
lemma iterate_follows {step : α → TokenKind → Option (Rule α)} (hstep : Rule.Advancing step)
    {turn : α → Descent (Option α)} (ht : Turns d turn step) (a : α) :
    Follows d (iterate turn a) (Rule.iterate step a) :=
  fun _ hc hd => iterateWithin_follows hstep ht a hc hd (length_ahead_lt hc)

/-- **One level deeper**, where there is a level left. -/
lemma nested_follows {what : Nesting} {x : Descent α} {r : Rule α} (hd : d < maxDepth)
    (hx : Follows (d + 1) x r) : Follows d (nested what x) r := by
  intro c hc hcd
  have hdown : (c.moveTo c.pos (c.depth + 1)).Orderly :=
    hc.moveTo (Nat.le_refl _) hc.sound.pos_le (by omega)
  obtain ⟨c', hx', hleads, hrest⟩ := hx hdown (by rw [Cursor.moveTo, hcd])
  have hdepth : c'.depth = c.depth + 1 := hleads.depth_eq
  have hup : (c'.moveTo c'.pos (c'.depth - 1)).Orderly :=
    hleads.orderly.moveTo (Nat.le_refl _) hleads.orderly.sound.pos_le (by omega)
  refine ⟨c'.moveTo c'.pos (c'.depth - 1), ?_, ⟨hup, hleads.tokens_eq, ?_, hleads.pos_le⟩, hrest⟩
  · have henter : enter what c = some (.ok (), c.moveTo c.pos (c.depth + 1)) := by
      rw [enter, if_neg (by omega)]
    rw [nested, bind_of_ok henter, hx']
    show leave (_, c') = _
    rw [leave, if_neg (by omega)]
    rfl
  · show c'.depth - 1 = c.depth
    omega

/-- **Too deep**, where there is none. -/
lemma nested_follows_fault {what : Nesting} {x : Descent α} (hd : maxDepth ≤ d) :
    Follows d (nested what x) (Rule.fault (.tooDeep what)) := by
  intro c hc hcd
  obtain ⟨c', hf, hleads, hrest⟩ := fault_follows (α := Unit) (.tooDeep what) hc hcd
  refine ⟨c', ?_, hleads, hrest⟩
  have henter : enter what c = some (outcome c (Rule.fault (.tooDeep what) c.ahead), c') := by
    rw [enter, if_pos (by omega), hf]
  rw [nested, bind_of_error henter]
  rfl

end Descent

end Idyl
