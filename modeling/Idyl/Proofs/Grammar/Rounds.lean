import Mathlib
import Idyl.Proofs.Grammar.Complete

/-!
# Repetition without rounds

Rules that repeat count their rounds by the tokens that were ahead when they started.  Every round
takes a token, so the count is never reached, and a repetition can be unrolled: it is one round and
the same repetition from where the round ended, whatever tokens are ahead there.

## Main definitions

* `Idyl.Rule.Paced` — phrases one after the other, each of which takes a token.
* `Idyl.assignmentTail` — what may follow the left side of an assignment.

## Main results

* `Idyl.Rule.many_of_true`, `Idyl.assignmentRule_eq` — repetitions, unrolled by one round.
* `Idyl.expressionRule_shrinking`, `Idyl.itemRule_shrinking`, `Idyl.functionRule_shrinking` —
  phrases of the language take a token.
-/

set_option autoImplicit false

namespace Idyl

namespace Rule

variable {α : Type}

/-! ## Phrases one after the other -/

/-- No phrase starts at the end of the file, and every phrase that starts takes a token. -/
structure Paced (starts : List Token → Bool) (item : Rule α) : Prop where
  atEnd : starts [] = false
  shrinking : ∀ ⦃ts a rest⦄, starts ts = true → item ts = .ok a rest → rest.length < ts.length

variable {starts : List Token → Bool} {item : Rule α}

/-- Without tokens nothing is repeated, whatever rounds there are. -/
lemma manyWithin_nil (h : Paced starts item) (rounds : List Token) :
    manyWithin starts item rounds [] = .ok [] [] := by
  cases rounds <;> simp [manyWithin, h.atEnd]

/-- The number of rounds does not matter once there are as many as tokens. -/
lemma manyWithin_eq (h : Paced starts item) (rounds rounds' ts : List Token)
    (hle : ts.length ≤ rounds.length) (hle' : ts.length ≤ rounds'.length) :
    manyWithin starts item rounds ts = manyWithin starts item rounds' ts := by
  induction rounds generalizing rounds' ts with
  | nil =>
    obtain rfl : ts = [] := List.length_eq_zero_iff.1 (by simpa using hle)
    rw [manyWithin_nil h, manyWithin_nil h]
  | cons u us ih =>
    cases rounds' with
    | nil =>
      obtain rfl : ts = [] := List.length_eq_zero_iff.1 (by simpa using hle')
      rw [manyWithin_nil h, manyWithin_nil h]
    | cons u' us' =>
      simp only [manyWithin]
      split
      · next hstart =>
        cases hi : item ts with
        | fail e rest => rfl
        | ok a rest =>
          have hlt := h.shrinking hstart hi
          simp only [List.length_cons] at hle hle'
          simp only
          rw [ih us' rest (by omega) (by omega)]
      · rfl

/-- Phrases one after the other end where none starts. -/
lemma many_of_false {ts : List Token} (hstart : starts ts = false) :
    many starts item ts = .ok [] ts := by
  cases ts with
  | nil => rfl
  | cons t ts => simp [many, manyWithin, hstart]

/-- **One phrase.** Where one starts, phrases one after the other are this one and those behind
it. -/
lemma many_of_true (h : Paced starts item) {ts : List Token} (hstart : starts ts = true) :
    many starts item ts =
      (do let a ← item; let as ← many starts item; pure (a :: as) : Rule (List α)) ts := by
  cases ts with
  | nil => rw [h.atEnd] at hstart; cases hstart
  | cons t ts =>
    simp only [many, manyWithin, hstart, ↓reduceIte]
    cases hi : item (t :: ts) with
    | fail e rest => rw [bind_of_fail hi]
    | ok a rest =>
      have hlt := h.shrinking hstart hi
      simp only [List.length_cons] at hlt
      rw [bind_of_ok hi]
      simp only
      rw [manyWithin_eq h ts rest rest (by omega) (Nat.le_refl _)]
      cases hm : manyWithin starts item rest rest with
      | fail e rest' => rw [bind_of_fail (show many starts item rest = _ from hm)]
      | ok as rest' => rw [bind_of_ok (show many starts item rest = _ from hm)]; rfl

/-- Where phrases one after the other end, no further one starts. -/
lemma starts_of_many (h : Paced starts item) {ts rest : List Token} {as : List α}
    (hm : many starts item ts = .ok as rest) : starts rest = false := by
  induction hn : ts.length using Nat.strongRecOn generalizing ts as with
  | _ n ih =>
    cases hstart : starts ts with
    | true =>
      rw [many_of_true h hstart] at hm
      simp only [bind_eq_ok, pure_apply, Reply.ok.injEq] at hm
      obtain ⟨a, mid, hi, as', _, hm', rfl, rfl⟩ := hm
      exact ih mid.length (hn ▸ h.shrinking hstart hi) hm' rfl
    | false =>
      rw [many_of_false hstart] at hm
      obtain ⟨rfl, rfl⟩ := Reply.ok.inj hm
      exact hstart

end Rule

open Rule Grammar

variable {operand : Rule Expr}

/-! ## Assignments -/

/-- What may follow a phrase: an `=` sign, if the phrase is a variable, and the value that is
assigned to it. -/
def assignmentTail (value : Rule Expr) (target : Expr) : Rule Expr := do
  if (← next) = .punct .assign then
    let sign ← mark .assign ""
    match target with
    | .var name span =>
      let v ← value
      pure (.assign name v (span.merge v.span))
    | _ => faultAt sign (.notAssignable target.form)
  else pure target

/-- An assignment with a round left: an operand, and what may follow it. -/
lemma assignmentWithin_cons (u : Token) (us : List Token) :
    assignmentWithin operand (u :: us) =
      operand >>= assignmentTail (assignmentWithin operand us) := rfl

/-- Rules for values that agree on what is left behind the `=` sign agree on the whole. -/
lemma assignmentTail_congr {value value' : Rule Expr} {target : Expr} {ts : List Token}
    (h : ∀ t rest, ts = t :: rest → value rest = value' rest) :
    assignmentTail value target ts = assignmentTail value' target ts := by
  unfold assignmentTail
  rw [next_bind, next_bind]
  split
  · cases hs : mark .assign "" ts with
    | fail e rest => rw [bind_of_fail hs, bind_of_fail hs]
    | ok sign rest =>
      obtain ⟨rfl, -⟩ := token_eq_ok.1 hs
      rw [bind_of_ok hs, bind_of_ok hs]
      cases target with
      | var name span =>
        show (value >>= _) rest = (value' >>= _) rest
        simp only [Bind.bind, h sign rest rfl]
      | _ => rfl
  · rfl

/-- A rule that takes a token has nothing to take at the end of the file. -/
lemma Rule.Shrinking.nil {α : Type} {r : Rule α} (h : r.Shrinking) :
    ∃ e rest, r [] = .fail e rest := by
  cases hr : r [] with
  | ok a rest => exact absurd (h hr) (by simp)
  | fail e rest => exact ⟨e, rest, rfl⟩

/-- The number of rounds does not matter once there are as many as tokens. -/
lemma assignmentWithin_eq (h : operand.Shrinking) (rounds rounds' ts : List Token)
    (hle : ts.length ≤ rounds.length) (hle' : ts.length ≤ rounds'.length) :
    assignmentWithin operand rounds ts = assignmentWithin operand rounds' ts := by
  induction rounds generalizing rounds' ts with
  | nil =>
    obtain rfl : ts = [] := List.length_eq_zero_iff.1 (by simpa using hle)
    obtain ⟨e, rest, he⟩ := h.nil
    cases rounds' with
    | nil => rfl
    | cons u' us' => rw [assignmentWithin_cons, bind_of_fail he, assignmentWithin, he]
  | cons u us ih =>
    cases rounds' with
    | nil =>
      obtain rfl : ts = [] := List.length_eq_zero_iff.1 (by simpa using hle')
      obtain ⟨e, rest, he⟩ := h.nil
      rw [assignmentWithin_cons, bind_of_fail he, assignmentWithin, he]
    | cons u' us' =>
      rw [assignmentWithin_cons, assignmentWithin_cons]
      cases ho : operand ts with
      | fail e rest => rw [bind_of_fail ho, bind_of_fail ho]
      | ok target mid =>
        have hlt := h ho
        simp only [List.length_cons] at hle hle'
        rw [bind_of_ok ho, bind_of_ok ho]
        refine assignmentTail_congr fun t rest hmid => ih us' rest ?_ ?_
        all_goals
          subst hmid
          simp only [List.length_cons] at hlt
          omega

/-- **Assignments, unrolled.** -/
lemma assignmentRule_eq (h : operand.Shrinking) :
    assignmentRule operand = operand >>= assignmentTail (assignmentRule operand) := by
  funext ts
  cases ts with
  | nil =>
    obtain ⟨e, rest, he⟩ := h.nil
    rw [bind_of_fail he, assignmentRule, assignmentWithin, he]
  | cons t ts =>
    rw [assignmentRule, assignmentWithin_cons]
    cases ho : operand (t :: ts) with
    | fail e rest => rw [bind_of_fail ho, bind_of_fail ho]
    | ok target mid =>
      have hlt := h ho
      rw [bind_of_ok ho, bind_of_ok ho]
      refine assignmentTail_congr fun u rest hmid => ?_
      subst hmid
      simp only [List.length_cons] at hlt
      exact assignmentWithin_eq h ts rest rest (by omega) (Nat.le_refl _)

/-! ## Every phrase takes a token -/

/-- Operators of all levels take a token. -/
lemma binaryRule_shrinking (depth level : Nat) :
    (binaryRule (operandRule depth) level).Shrinking :=
  (binaryRule_sound (operandRule_sound depth) level).shrinking
    (binary_startsWith (operand_startsWith depth))

/-- Expressions take a token. -/
lemma expressionRule_shrinking (depth : Nat) : (expressionRule (operandRule depth)).Shrinking :=
  (expressionRule_sound (operandRule_sound depth)).shrinking
    (expression_startsWith (operand_startsWith depth))

/-- What stands in a block takes a token. -/
lemma itemRule_shrinking (depth : Nat) :
    (itemRule (expressionRule (operandRule depth)) (statementRule depth)).Shrinking :=
  (itemRule_sound (expressionRule_sound (operandRule_sound depth))
    (statementRule_sound depth)).shrinking (item_startsWith (statement_startsWith depth))

/-- Imports take a token. -/
lemma importRule_shrinking : importRule.Shrinking :=
  importRule_sound.shrinking importLine_startsWith

/-- A function that is ahead takes a token. -/
lemma functionRule_shrinking {ts rest : List Token} {f : Function}
    (ha : functionAhead ts = true) (hr : functionRule ts = .ok f rest) :
    rest.length < ts.length := by
  obtain ⟨ks, hk, hf⟩ := functionRule_sound ha hr
  obtain ⟨k, ks', rfl, -⟩ := functionText_startsWith maxDepth hf
  exact length_lt_of_kinds hk (by simp)

/-- What stands in a library takes a token. -/
lemma libraryItemRule_shrinking : libraryItemRule.Shrinking := by
  intro ts f rest hr
  unfold libraryItemRule at hr
  split at hr
  · simp only [bind_eq_ok, pure_apply, Reply.ok.injEq] at hr
    obtain ⟨i, _, hi, -, rfl⟩ := hr
    exact importRule_shrinking hi
  · split at hr
    · next ha =>
      simp only [map_eq_bind, bind_eq_ok, pure_apply, Reply.ok.injEq] at hr
      obtain ⟨f', _, hf, -, rfl⟩ := hr
      exact functionRule_shrinking ha hf
    · simp [fault] at hr

/-! ## Lists of phrases -/

/-- Imports are repeated while one is ahead, and each takes a token. -/
lemma imports_paced : Paced importAhead importRule :=
  ⟨by decide, fun _ _ _ _ h => importRule_shrinking h⟩

/-- Functions are repeated while one is ahead, and each takes a token. -/
lemma functions_paced : Paced functionAhead functionRule :=
  ⟨by decide, fun _ _ _ ha h => functionRule_shrinking ha h⟩

/-- What stands in a library is repeated up to the end of the file. -/
lemma libraryItems_paced :
    Paced (fun ts => decide (peek ts ≠ .endOfFile)) libraryItemRule :=
  ⟨by decide, fun _ _ _ _ h => libraryItemRule_shrinking h⟩

/-- What stands in a block is repeated up to its brace. -/
lemma items_paced (depth : Nat) :
    Paced inBlock (itemRule (expressionRule (operandRule depth)) (statementRule depth)) :=
  ⟨by decide, fun _ _ _ _ h => itemRule_shrinking depth h⟩

/-- Arguments are repeated while a comma is ahead. -/
lemma arguments_paced (depth : Nat) :
    Paced (fun ts => decide (peek ts = .punct .comma))
      (do let _ ← mark .comma ""; expressionRule (operandRule depth) : Rule Expr) where
  atEnd := by decide
  shrinking := fun _ _ _ _ h =>
    bind_shrinking (token_shrinking _ _)
      (fun _ _ _ _ h => Nat.le_of_lt (expressionRule_shrinking depth h)) h

end Idyl
