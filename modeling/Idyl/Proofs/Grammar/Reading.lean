import Mathlib
import Idyl.Grammar.Rule

/-!
# What rules read

A phrase is given by the lists of kinds of tokens that spell it.  This file relates rules, which
look ahead and repeat as long as they can, to phrases, which are only said to be there.

A rule is *sound* for a phrase if whatever it takes off the front of the tokens spells the tree
it gives.  In the other direction a reply *reaches* a tree: the tokens that spell it are gone and
reading goes on behind them, or the limit on nesting stood in the way.

## Main definitions

* `Idyl.Phrase`, `Idyl.Repeated` — phrases, and phrases one after the other.
* `Idyl.Rule.Sound` — every success spells its tree.
* `Idyl.Reply.Reaches`, `Idyl.Reply.Gives` — a tree was read, or phrases were nested too deeply.
* `Idyl.Rule.Shrinking`, `Idyl.Rule.Advancing` — every success takes a token.

## Main results

* `Idyl.Rule.iterate_of_some` — a round of a repetition is one step and the repetition after it.
* `Idyl.Rule.iterate_sound`, `Idyl.Rule.many_sound` — repetition keeps soundness.
* `Idyl.Rule.many_gives` — repetition reads as many phrases as there are.
-/

set_option autoImplicit false

namespace Idyl

/-! ## Kinds of tokens and phrases -/

/-- The kinds of some tokens. -/
def kinds (ts : List Token) : List TokenKind := ts.map (·.kind)

/-- No tokens have no kinds. -/
@[simp] lemma kinds_nil : kinds [] = [] := rfl

/-- The kinds of tokens, one by one. -/
@[simp] lemma kinds_cons (t : Token) (ts : List Token) : kinds (t :: ts) = t.kind :: kinds ts :=
  rfl

/-- There are as many kinds as tokens. -/
@[simp] lemma kinds_length (ts : List Token) : (kinds ts).length = ts.length := by
  simp [kinds]

/-- Tokens with a first kind have a first token. -/
lemma kinds_eq_cons {ts : List Token} {k : TokenKind} {ks : List TokenKind}
    (h : kinds ts = k :: ks) : ∃ t rest, ts = t :: rest ∧ t.kind = k ∧ kinds rest = ks := by
  cases ts with
  | nil => simp at h
  | cons t rest =>
    rw [kinds_cons, List.cons.injEq] at h
    exact ⟨t, rest, rfl, h.1, h.2⟩

/-- The first of some kinds, or the end of the file. -/
def firstKind : List TokenKind → TokenKind
  | [] => .endOfFile
  | k :: _ => k

/-- The first kind of some. -/
@[simp] lemma firstKind_cons (k : TokenKind) (ks : List TokenKind) : firstKind (k :: ks) = k := rfl

/-- What a rule sees ahead is the first kind. -/
lemma peek_eq_firstKind (ts : List Token) : peek ts = firstKind (kinds ts) := by
  cases ts <;> rfl

/-- A kind of phrase: which tokens, given by their kinds, spell which trees. -/
def Phrase (α : Type) : Type := List TokenKind → α → Prop

/-- Phrases one after the other. -/
inductive Repeated {α : Type} (R : Phrase α) : Phrase (List α)
  | nil : Repeated R [] []
  | cons {ks ks' : List TokenKind} {a : α} {as : List α} (head : R ks a)
      (tail : Repeated R ks' as) : Repeated R (ks ++ ks') (a :: as)

/-- Every phrase of the kind starts with a token that passes the test. -/
def Phrase.StartsWith {α : Type} (R : Phrase α) (test : TokenKind → Bool) : Prop :=
  ∀ ⦃ks a⦄, R ks a → ∃ k ks', ks = k :: ks' ∧ test k = true

variable {α β γ δ : Type}

/-! ## Rules one after the other -/

namespace Rule

/-- A value takes no token. -/
lemma pure_apply (a : α) (ts : List Token) : (pure a : Rule α) ts = .ok a ts := rfl

/-- Looking at the kind ahead takes no token. -/
lemma next_bind (f : TokenKind → Rule α) (ts : List Token) : (next >>= f) ts = f (peek ts) ts :=
  rfl

/-- After a success the second rule goes on. -/
lemma bind_of_ok {r : Rule α} {f : α → Rule β} {ts rest : List Token} {a : α}
    (h : r ts = .ok a rest) : (r >>= f) ts = f a rest := by
  simp only [Bind.bind, h]

/-- After a failure nothing goes on. -/
lemma bind_of_fail {r : Rule α} {f : α → Rule β} {ts rest : List Token} {e : Misread}
    (h : r ts = .fail e rest) : (r >>= f) ts = .fail e rest := by
  simp only [Bind.bind, h]

/-- Two rules in a row succeed exactly if both do. -/
lemma bind_eq_ok {r : Rule α} {f : α → Rule β} {ts rest : List Token} {b : β} :
    (r >>= f) ts = .ok b rest ↔ ∃ a mid, r ts = .ok a mid ∧ f a mid = .ok b rest := by
  cases h : r ts with
  | ok a mid => rw [bind_of_ok h]; simp
  | fail e mid => rw [bind_of_fail h]; simp

/-- Changing what is read is a step behind the reading. -/
lemma map_eq_bind (f : α → β) (r : Rule α) : f <$> r = r >>= fun a => pure (f a) := rfl

/-- A token is taken if it is of the kind that is asked for. -/
lemma token_eq_ok {kind : TokenKind} {place : String} {ts rest : List Token} {t : Token} :
    token kind place ts = .ok t rest ↔ ts = t :: rest ∧ t.kind = kind := by
  cases ts with
  | nil => simp [token, expected, fault]
  | cons u us =>
    by_cases h : u.kind = kind
    · simp only [token, h, ↓reduceIte, Reply.ok.injEq, List.cons.injEq]
      constructor
      · rintro ⟨rfl, rfl⟩
        exact ⟨⟨rfl, rfl⟩, h⟩
      · exact fun hu => hu.1
    · simp only [token, h, ↓reduceIte, expected, fault, reduceCtorEq, List.cons.injEq, false_iff]
      rintro ⟨⟨rfl, -⟩, hk⟩
      exact h hk

/-- A name is taken with its span. -/
lemma name_eq_ok {what n : String} {ts rest : List Token} {s : Span} :
    name what ts = .ok (n, s) rest ↔
      ∃ t, ts = t :: rest ∧ t.kind = .identifier n ∧ t.span = s := by
  cases ts with
  | nil => simp [name, expected, fault]
  | cons u us =>
    simp only [name, List.cons.injEq]
    split
    · next m h =>
      simp only [Reply.ok.injEq, Prod.mk.injEq]
      constructor
      · rintro ⟨⟨rfl, rfl⟩, rfl⟩
        exact ⟨u, ⟨rfl, rfl⟩, h, rfl⟩
      · rintro ⟨t, ⟨rfl, rfl⟩, ht, rfl⟩
        rw [h, TokenKind.identifier.injEq] at ht
        exact ⟨⟨ht, rfl⟩, rfl⟩
    · next h =>
      simp only [expected, fault, reduceCtorEq, false_iff]
      rintro ⟨t, ⟨rfl, -⟩, ht, -⟩
      exact h n ht

/-! ## Soundness and progress -/

/-- Every success takes tokens that spell the tree it gives, seen through `view`. -/
def Sound (r : Rule β) (view : β → α) (R : Phrase α) : Prop :=
  ∀ ⦃ts b rest⦄, r ts = .ok b rest → ∃ ks, kinds ts = ks ++ kinds rest ∧ R ks (view b)

/-- Every success takes a token. -/
def Shrinking (r : Rule α) : Prop :=
  ∀ ⦃ts a rest⦄, r ts = .ok a rest → rest.length < ts.length

/-- Behind some tokens there are fewer. -/
lemma length_lt_of_kinds {ts rest : List Token} {ks : List TokenKind}
    (h : kinds ts = ks ++ kinds rest) (hks : ks ≠ []) : rest.length < ts.length := by
  have hl := congrArg List.length h
  have := List.length_pos_iff.2 hks
  simp only [kinds_length, List.length_append] at hl
  omega

/-- A sound rule leaves no more tokens than there were. -/
lemma Sound.length_le {r : Rule β} {view : β → α} {R : Phrase α} (h : r.Sound view R)
    {ts rest : List Token} {b : β} (hr : r ts = .ok b rest) : rest.length ≤ ts.length := by
  obtain ⟨ks, hk, -⟩ := h hr
  have hl := congrArg List.length hk
  simp only [kinds_length, List.length_append] at hl
  omega

/-- A sound rule for phrases that are never empty takes a token. -/
lemma Sound.shrinking {r : Rule β} {view : β → α} {R : Phrase α} {test : TokenKind → Bool}
    (h : r.Sound view R) (hR : R.StartsWith test) : r.Shrinking := by
  intro ts b rest hr
  obtain ⟨ks, hk, hks⟩ := h hr
  obtain ⟨k, ks', rfl, -⟩ := hR hks
  exact length_lt_of_kinds hk (by simp)

/-- A rule takes a token if its first part does and its second part gives none back. -/
lemma bind_shrinking {r : Rule α} {f : α → Rule β} (hr : r.Shrinking)
    (hf : ∀ ⦃a ts b rest⦄, f a ts = .ok b rest → rest.length ≤ ts.length) :
    (r >>= f).Shrinking := by
  intro ts b rest h
  obtain ⟨a, mid, h₁, h₂⟩ := bind_eq_ok.1 h
  have := hr h₁
  have := hf h₂
  omega

/-- Taking a token leaves fewer. -/
lemma token_shrinking (kind : TokenKind) (place : String) : (token kind place).Shrinking := by
  intro ts t rest h
  obtain ⟨rfl, -⟩ := token_eq_ok.1 h
  simp

/-- A repetition whose every round takes a token, and which ends with the file. -/
structure Advancing (step : α → TokenKind → Option (Rule α)) : Prop where
  atEnd : ∀ a, step a .endOfFile = none
  shrinking : ∀ ⦃a k r⦄, step a k = some r → r.Shrinking

end Rule

/-! ## Reaching a tree -/

namespace Reply

/-- Phrases were nested too deeply. -/
def TooDeep (reply : Reply γ) : Prop :=
  ∃ what t rest, reply = .fail ⟨.tooDeep what, t⟩ rest

/-- The tree `a`, seen through `view`, was read, and reading goes on by `goOn` from the tokens
`ks`; or phrases were nested too deeply, which can only be if `deep` holds. -/
def Reaches (reply : Reply γ) (goOn : β → Rule γ) (view : β → α) (a : α)
    (ks : List TokenKind) (deep : Prop) : Prop :=
  (∃ b rest, view b = a ∧ kinds rest = ks ∧ reply = goOn b rest) ∨ (deep ∧ reply.TooDeep)

/-- The tree `a`, seen through `view`, was read, and the tokens `ks` are left; or phrases were
nested too deeply, which can only be if `deep` holds. -/
def Gives (reply : Reply β) (view : β → α) (a : α) (ks : List TokenKind) (deep : Prop) : Prop :=
  reply.Reaches pure view a ks deep

variable {ts rest : List Token} {ks ks' : List TokenKind} {deep : Prop} {a : α} {view : β → α}

/-- A reply that is a success gives what it holds. -/
lemma Gives.of_ok {reply : Reply β} {b : β} (h : reply = .ok b rest) (hb : view b = a)
    (hk : kinds rest = ks) : reply.Gives view a ks deep :=
  .inl ⟨b, rest, hb, hk, h⟩

/-- Reading has come to where it goes on. -/
lemma Reaches.here {goOn : β → Rule γ} {b : β} (hb : view b = a) (hk : kinds rest = ks) :
    (goOn b rest).Reaches goOn view a ks deep :=
  .inl ⟨b, rest, hb, hk, rfl⟩

/-- What is nested too deep stays so, whatever follows. -/
lemma TooDeep.bind {r : Rule β} {f : β → Rule γ} (h : (r ts).TooDeep) :
    ((r >>= f) ts).TooDeep := by
  obtain ⟨what, t, rest, h⟩ := h
  exact ⟨what, t, rest, Rule.bind_of_fail h⟩

/-- **Rules in a row.** If the first rule gives a tree, and from every tree of that view the
second one reaches its own, the two together do. -/
lemma Gives.bind {ε : Type} {r : Rule β} {f : β → Rule γ} {goOn : δ → Rule γ} {view' : δ → ε}
    {c : ε} (h : (r ts).Gives view a ks deep)
    (hf : ∀ b rest, view b = a → kinds rest = ks →
      (f b rest).Reaches goOn view' c ks' deep) :
    ((r >>= f) ts).Reaches goOn view' c ks' deep := by
  rcases h with ⟨b, rest, hb, hk, hr⟩ | ⟨hd, hr⟩
  · rw [Rule.bind_of_ok hr]
    exact hf b rest hb hk
  · exact .inr ⟨hd, hr.bind⟩

/-- What the first of two rules gives, the second one goes on from. -/
lemma Gives.andThen {r : Rule β} {f : β → Rule γ} (h : (r ts).Gives view a ks deep) :
    ((r >>= f) ts).Reaches f view a ks deep :=
  h.bind fun _ _ hb hk => .here hb hk

/-- Reading goes on from a tree that was reached. -/
lemma Reaches.trans {ε : Type} {reply : Reply γ} {goOn : β → Rule γ} {goOn' : δ → Rule γ}
    {view' : δ → ε} {c : ε} (h : reply.Reaches goOn view a ks deep)
    (hf : ∀ b rest, view b = a → kinds rest = ks →
      (goOn b rest).Reaches goOn' view' c ks' deep) :
    reply.Reaches goOn' view' c ks' deep := by
  rcases h with ⟨b, rest, hb, hk, rfl⟩ | h
  · exact hf b rest hb hk
  · exact .inr h

/-- Nesting may be called too deep more often. -/
lemma Gives.mono {reply : Reply β} {deep' : Prop} (h : reply.Gives view a ks deep)
    (hd : deep → deep') : reply.Gives view a ks deep' :=
  h.imp id (And.imp_left hd)

end Reply

namespace Rule

/-- Every phrase of the kind is read, whatever tokens come after it that `follow` allows; or
phrases were nested too deeply, which can only be if `deep` holds. -/
def Complete (r : Rule β) (view : β → α) (R : Phrase α) (follow : α → List TokenKind → Prop)
    (deep : Prop) : Prop :=
  ∀ ⦃ts ks a ks'⦄, R ks a → kinds ts = ks ++ ks' → follow a ks' → (r ts).Gives view a ks' deep

/-- Less may follow, and nesting may be called too deep more often. -/
lemma Complete.mono {r : Rule β} {view : β → α} {R : Phrase α}
    {follow follow' : α → List TokenKind → Prop} {deep deep' : Prop}
    (h : r.Complete view R follow deep) (hf : ∀ a ks, follow' a ks → follow a ks)
    (hd : deep → deep') : r.Complete view R follow' deep' :=
  fun _ _ a ks' hR hk hfollow => (h hR hk (hf a ks' hfollow)).mono hd

/-- A token of the kind asked for is given. -/
lemma token_gives {kind : TokenKind} {place : String} {ts : List Token} {ks : List TokenKind}
    {deep : Prop} (h : kinds ts = kind :: ks) :
    (token kind place ts).Gives (·.kind) kind ks deep := by
  obtain ⟨t, rest, rfl, hk, hrest⟩ := kinds_eq_cons h
  exact .of_ok (token_eq_ok.2 ⟨rfl, hk⟩) hk hrest

/-- A name that is ahead is given. -/
lemma name_gives {what n : String} {ts : List Token} {ks : List TokenKind} {deep : Prop}
    (h : kinds ts = .identifier n :: ks) : (name what ts).Gives (·.1) n ks deep := by
  obtain ⟨t, rest, rfl, hk, hrest⟩ := kinds_eq_cons h
  exact .of_ok (name_eq_ok.2 ⟨t, rfl, hk, rfl⟩) rfl hrest

/-! ## Going on from a phrase to a larger one -/

section Iterate

variable {step : α → TokenKind → Option (Rule α)}

/-- At the end of the file a repetition ends, whatever number of rounds is left. -/
lemma iterateWithin_nil (h : Advancing step) (rounds : List Token) (a : α) :
    iterateWithin step rounds a [] = .ok a [] := by
  cases rounds <;> simp [iterateWithin, peek, h.atEnd]

/-- The number of rounds does not matter once there are as many as tokens.

**Proof sketch.** Induction on the first list of rounds.  A round of an advancing repetition takes
a token, so both lists of rounds still have as many entries as there are tokens. -/
lemma iterateWithin_eq (h : Advancing step) (rounds rounds' : List Token) (a : α)
    (ts : List Token) (hle : ts.length ≤ rounds.length) (hle' : ts.length ≤ rounds'.length) :
    iterateWithin step rounds a ts = iterateWithin step rounds' a ts := by
  induction rounds generalizing rounds' a ts with
  | nil =>
    obtain rfl : ts = [] := List.length_eq_zero_iff.1 (by simpa using hle)
    rw [iterateWithin_nil h, iterateWithin_nil h]
  | cons u us ih =>
    cases rounds' with
    | nil =>
      obtain rfl : ts = [] := List.length_eq_zero_iff.1 (by simpa using hle')
      rw [iterateWithin_nil h, iterateWithin_nil h]
    | cons u' us' =>
      simp only [iterateWithin]
      cases hs : step a (peek ts) with
      | none => rfl
      | some r =>
        cases hr : r ts with
        | fail e rest => simp only [hr]
        | ok b rest =>
          have hlt := h.shrinking hs hr
          simp only [List.length_cons] at hle hle'
          simp only [hr]
          exact ih us' b rest (by omega) (by omega)

/-- A repetition ends where no step is possible. -/
lemma iterate_of_none {a : α} {ts : List Token} (h : step a (peek ts) = none) :
    iterate step a ts = .ok a ts := by
  cases ts with
  | nil => rfl
  | cons t ts => simp only [iterate, iterateWithin, h]

/-- **One round.** Where a step is possible, a repetition is that step and the repetition from
what it gives. -/
lemma iterate_of_some (h : Advancing step) {a : α} {ts : List Token} {r : Rule α}
    (hs : step a (peek ts) = some r) : iterate step a ts = (r >>= iterate step) ts := by
  cases ts with
  | nil => rw [peek, h.atEnd] at hs; simp at hs
  | cons t ts =>
    simp only [iterate, iterateWithin, hs]
    cases hr : r (t :: ts) with
    | fail e rest => rw [bind_of_fail hr]
    | ok b rest =>
      have hlt := h.shrinking hs hr
      simp only [List.length_cons] at hlt
      rw [bind_of_ok hr]
      exact iterateWithin_eq h ts rest b rest (by omega) (Nat.le_refl _)

/-- Tokens that turn every spelling of one tree into a spelling of another. -/
def Extends (R : Phrase β) (a b : β) (ks : List TokenKind) : Prop :=
  ∀ ⦃ks₀⦄, R ks₀ a → R (ks₀ ++ ks) b

/-- Soundness of a repetition: if every step extends the phrase before it by what it takes, so
does the repetition.

**Proof sketch.** Induction on the rounds.  The tokens of the first step and those of the
repetition after it are put together. -/
lemma iterate_sound {view : α → β} {R : Phrase β}
    (hstep : ∀ ⦃a r ts b rest⦄, step a (peek ts) = some r → r ts = .ok b rest →
      ∃ ks, kinds ts = ks ++ kinds rest ∧ Extends R (view a) (view b) ks)
    {a : α} {ts : List Token} {b : α} {rest : List Token} (h : iterate step a ts = .ok b rest) :
    ∃ ks, kinds ts = ks ++ kinds rest ∧ Extends R (view a) (view b) ks := by
  have go : ∀ (rounds : List Token) (a : α) (ts : List Token),
      iterateWithin step rounds a ts = .ok b rest →
      ∃ ks, kinds ts = ks ++ kinds rest ∧ Extends R (view a) (view b) ks := by
    intro rounds
    induction rounds with
    | nil =>
      intro a ts h
      simp only [iterateWithin, Reply.ok.injEq] at h
      obtain ⟨rfl, rfl⟩ := h
      exact ⟨[], rfl, fun ks₀ h₀ => by simpa using h₀⟩
    | cons u us ih =>
      intro a ts h
      simp only [iterateWithin] at h
      cases hs : step a (peek ts) with
      | none =>
        simp only [hs, Reply.ok.injEq] at h
        obtain ⟨rfl, rfl⟩ := h
        exact ⟨[], rfl, fun ks₀ h₀ => by simpa using h₀⟩
      | some r =>
        cases hr : r ts with
        | fail e mid => simp [hs, hr] at h
        | ok c mid =>
          simp only [hs, hr] at h
          obtain ⟨ks₁, hk₁, h₁⟩ := hstep hs hr
          obtain ⟨ks₂, hk₂, h₂⟩ := ih c mid h
          refine ⟨ks₁ ++ ks₂, by rw [hk₁, hk₂, List.append_assoc], fun ks₀ h₀ => ?_⟩
          rw [← List.append_assoc]
          exact h₂ (h₁ h₀)
  exact go ts a ts h

end Iterate

/-! ## Phrases one after the other -/

section Many

variable {starts : List Token → Bool} {item : Rule β} {view : β → α} {R : Phrase α}

/-- Soundness of reading phrases one after the other, where each is known to have started as
`starts` demands. -/
lemma many_sound
    (hitem : ∀ ⦃ts b rest⦄, starts ts = true → item ts = .ok b rest →
      ∃ ks, kinds ts = ks ++ kinds rest ∧ R ks (view b)) :
    (many starts item).Sound (List.map view) (Repeated R) := by
  have go : ∀ (rounds ts : List Token) (bs : List β) (rest : List Token),
      manyWithin starts item rounds ts = .ok bs rest →
      ∃ ks, kinds ts = ks ++ kinds rest ∧ Repeated R ks (bs.map view) := by
    intro rounds
    induction rounds with
    | nil =>
      intro ts bs rest h
      simp only [manyWithin, Reply.ok.injEq] at h
      obtain ⟨rfl, rfl⟩ := h
      exact ⟨[], rfl, .nil⟩
    | cons u us ih =>
      intro ts bs rest h
      simp only [manyWithin] at h
      split at h
      · next hst =>
        cases hi : item ts with
        | fail e mid => simp [hi] at h
        | ok b mid =>
          cases hm : manyWithin starts item us mid with
          | fail e rest' => simp [hi, hm] at h
          | ok bs' rest' =>
            simp only [hi, hm, Reply.ok.injEq] at h
            obtain ⟨rfl, rfl⟩ := h
            obtain ⟨ks₁, hk₁, h₁⟩ := hitem hst hi
            obtain ⟨ks₂, hk₂, h₂⟩ := ih mid bs' rest' hm
            exact ⟨ks₁ ++ ks₂, by rw [hk₁, hk₂, List.append_assoc], .cons h₁ h₂⟩
      · simp only [Reply.ok.injEq] at h
        obtain ⟨rfl, rfl⟩ := h
        exact ⟨[], rfl, .nil⟩
  exact fun ts bs rest h => go ts ts bs rest h

/-- **Phrases one after the other** are all read, if each of them starts as `starts` demands and
may be followed by another one, and if `starts` fails behind the last.

**Proof sketch.** Induction on the phrases.  Every phrase takes a token, so as many rounds as
there are tokens are never used up. -/
lemma many_gives {test : TokenKind → Bool} {follow : List TokenKind → Prop} {deep : Prop}
    {ks ks' : List TokenKind} {as : List α} {ts : List Token} (hR : R.StartsWith test)
    (hstart : ∀ ⦃ts ks a ks'⦄, R ks a → kinds ts = ks ++ ks' → starts ts = true)
    (hnext : ∀ ⦃ks a ks'⦄, R ks a → follow (ks ++ ks'))
    (hitem : item.Complete view R (fun _ => follow) deep)
    (hstop : ∀ ⦃ts⦄, kinds ts = ks' → starts ts = false) (hfollow : follow ks')
    (h : Repeated R ks as) (hk : kinds ts = ks ++ ks') :
    (many starts item ts).Gives (List.map view) as ks' deep := by
  have go : ∀ {ks as}, Repeated R ks as → ∀ rounds ts : List Token, kinds ts = ks ++ ks' →
      ts.length ≤ rounds.length →
      (manyWithin starts item rounds ts).Gives (List.map view) as ks' deep := by
    intro ks as h
    induction h with
    | nil =>
      intro rounds ts hk _
      refine .inl ⟨[], ts, rfl, hk, ?_⟩
      cases rounds with
      | nil => rfl
      | cons u us => simp [manyWithin, hstop hk, pure_apply]
    | @cons ks₁ ks₂ a as h₁ h₂ ih =>
      intro rounds ts hk hle
      rw [List.append_assoc] at hk
      have hf : follow (ks₂ ++ ks') := by
        cases h₂ with
        | nil => exact hfollow
        | cons h₂ _ => rw [List.append_assoc]; exact hnext h₂
      obtain ⟨k, ks₁', rfl, -⟩ := hR h₁
      cases rounds with
      | nil =>
        have := congrArg List.length hk
        simp only [kinds_length, List.cons_append, List.length_cons] at this
        simp only [List.length_nil] at hle
        omega
      | cons u us =>
        have hst := hstart h₁ hk
        simp only [manyWithin, hst, ↓reduceIte]
        rcases hitem h₁ hk hf with ⟨b, mid, hb, hmid, hi⟩ | ⟨hd, what, t, mid, hi⟩
        · have hlt : mid.length < ts.length := length_lt_of_kinds (hk.trans (by rw [hmid]))
            (List.cons_ne_nil k ks₁')
          simp only [List.length_cons] at hle
          rcases ih us mid hmid (by omega) with ⟨bs, rest, hbs, hrest, hm⟩ | ⟨hd, what, t, rest, hm⟩
          · refine .inl ⟨b :: bs, rest, by rw [List.map_cons, hb, hbs], hrest, ?_⟩
            simp only [hi, pure_apply, hm]
          · exact .inr ⟨hd, what, t, rest, by simp only [hi, pure_apply, hm]⟩
        · exact .inr ⟨hd, what, t, mid, by simp only [hi]⟩
  exact go h ts ts hk (Nat.le_refl _)

end Many

end Rule

end Idyl
