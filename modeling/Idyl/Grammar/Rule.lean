import Idyl.Grammar.Fault

/-!
# Rules of a grammar

A rule reads a phrase from the front of a list of tokens.  It gives the phrase and the tokens
behind it, or a fault and the tokens from which on nothing was read.  The end of the file is the
end of the list, so no rule can read beyond it.

Phrases that repeat are read in rounds.  Every round takes a token, so as many rounds as there
are tokens are enough, and the tokens themselves serve to count them.

## Main definitions

* `Idyl.Misread`, `Idyl.Reply`, `Idyl.Rule` — rules and what they give.
* `Idyl.Rule.token`, `Idyl.Rule.name` — rules for one token.
* `Idyl.Rule.many`, `Idyl.Rule.iterate` — repetition.
-/

set_option autoImplicit false

namespace Idyl

/-- A fault and the token at fault, which is missing if the file ends there. -/
structure Misread where
  fault : SyntaxFault
  token : Option Token
deriving DecidableEq

/-- What reading by a rule gives: a phrase, or a fault, and the tokens left. -/
inductive Reply (α : Type) where
  | ok (value : α) (rest : List Token)
  | fail (misread : Misread) (rest : List Token)

/-- The tokens left. -/
def Reply.rest {α : Type} : Reply α → List Token
  | ok _ rest => rest
  | fail _ rest => rest

/-- A rule that reads phrases of one kind. -/
def Rule (α : Type) : Type := List Token → Reply α

/-- What the first token is, or the end of the file. -/
def peek : List Token → TokenKind
  | [] => .endOfFile
  | t :: _ => t.kind

namespace Rule

variable {α β : Type}

/-- Rules are put one after the other; the first fault ends them all. -/
instance : Monad Rule where
  pure a := fun ts => .ok a ts
  bind r f := fun ts =>
    match r ts with
    | .ok a rest => f a rest
    | .fail e rest => .fail e rest

/-- A fault at the first token. -/
def fault (f : SyntaxFault) : Rule α := fun ts => .fail ⟨f, ts.head?⟩ ts

/-- A fault at a token that has been read already. -/
def faultAt (t : Token) (f : SyntaxFault) : Rule α := fun ts => .fail ⟨f, some t⟩ ts

/-- The fault that something else was expected. -/
def expected (what : String) : Rule α := fun ts => fault (.expected what (peek ts)) ts

/-- What the first token is. -/
def next : Rule TokenKind := fun ts => .ok (peek ts) ts

/-- What is expected where a token of fixed spelling is missing. -/
def wanted (kind : TokenKind) (place : String) : String :=
  if place.isEmpty then kind.shown else s!"{kind.shown} {place}"

/-- Reads a token of the given kind; `place` tells the user where it belongs. -/
def token (kind : TokenKind) (place : String) : Rule Token
  | t :: rest => if t.kind = kind then .ok t rest else expected (wanted kind place) (t :: rest)
  | [] => expected (wanted kind place) []

/-- Reads a mark. -/
def mark (p : Punct) (place : String) : Rule Token := token (.punct p) place

/-- Reads a reserved word. -/
def word (k : Keyword) (place : String) : Rule Token := token (.keyword k) place

/-- Reads a name; `what` tells the user what it names. -/
def name (what : String) : Rule (String × Span)
  | t :: rest =>
    match t.kind with
    | .identifier n => .ok (n, t.span) rest
    | _ => expected what (t :: rest)
  | [] => expected what []

/-! ## Repetition -/

/-- Reads phrases while `starts` holds of the tokens ahead, in at most as many rounds as
`rounds` has entries. -/
def manyWithin (starts : List Token → Bool) (item : Rule α) : List Token → Rule (List α)
  | [], ts => .ok [] ts
  | _ :: rounds, ts =>
    if starts ts then
      match item ts with
      | .fail e rest => .fail e rest
      | .ok a rest =>
        match manyWithin starts item rounds rest with
        | .fail e rest => .fail e rest
        | .ok as rest => .ok (a :: as) rest
    else .ok [] ts

/-- Reads phrases while `starts` holds of the tokens ahead. -/
def many (starts : List Token → Bool) (item : Rule α) : Rule (List α) :=
  fun ts => manyWithin starts item ts ts

/-- Goes on from a phrase to a larger one while `step` has a rule for it, in at most as many
rounds as `rounds` has entries. -/
def iterateWithin (step : α → TokenKind → Option (Rule α)) : List Token → α → Rule α
  | [], a, ts => .ok a ts
  | _ :: rounds, a, ts =>
    match step a (peek ts) with
    | none => .ok a ts
    | some rule =>
      match rule ts with
      | .fail e rest => .fail e rest
      | .ok b rest => iterateWithin step rounds b rest

/-- Goes on from a phrase to a larger one while `step`, which sees the phrase and the token
ahead, has a rule for it. -/
def iterate (step : α → TokenKind → Option (Rule α)) (a : α) : Rule α :=
  fun ts => iterateWithin step ts a ts

end Rule

end Idyl
