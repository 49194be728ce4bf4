import Idyl.Grammar.Session
import Idyl.Proofs.Grammar.Complete

/-!
# Programs are the sentences of the grammar

Reading a list of tokens that ends in an end-of-file token gives a program exactly if the kinds of
the tokens spell one, and then it gives the program that they spell.  In particular no list of
kinds spells two programs.

## Main definitions

* `Idyl.EndsOnce` — tokens up to the end of a file.

## Main results

* `Idyl.parseTokens_ok_iff_sentence` — reading accepts the sentences and builds their trees.
-/

set_option autoImplicit false

namespace Idyl

open Grammar

/-- The tokens end in an end-of-file token, and there is none before it. -/
def EndsOnce (tokens : List Token) : Prop :=
  ∃ body last, tokens = body ++ [last] ∧ last.kind = .endOfFile ∧ .endOfFile ∉ kinds body

/-- The tokens ahead of a new session are all up to the end of the file. -/
lemma Session.ahead_ofTokens {body : List Token} {last : Token} (hlast : last.kind = .endOfFile)
    (hbody : .endOfFile ∉ kinds body) : (Session.ofTokens (body ++ [last])).ahead = body := by
  have hcomplete : Session.complete (body ++ [last]) = body ++ [last] := by
    simp [Session.complete, hlast]
  have hall : ∀ t ∈ body, decide (t.kind ≠ .endOfFile) = true := by
    intro t ht
    refine decide_eq_true fun hk => hbody ?_
    exact List.mem_map.2 ⟨t, ht, hk⟩
  rw [Session.ofTokens, hcomplete, Session.ahead, List.drop_zero,
    List.takeWhile_append_of_pos hall]
  simp [hlast]

/-- Reading a program is asking the rule for programs, and placing its fault. -/
lemma parseTokens_append {body : List Token} {last : Token} (hlast : last.kind = .endOfFile)
    (hbody : .endOfFile ∉ kinds body) :
    parseTokens (body ++ [last]) =
      match programRule (Session.fileOf (body ++ [last])) body with
      | .ok p _ => .ok p
      | .fail m _ => .error ((Session.ofTokens (body ++ [last])).locate m) := by
  have hfile : (Session.ofTokens (body ++ [last])).file = Session.fileOf (body ++ [last]) := by
    simp [Session.ofTokens, Session.file, Session.complete, hlast]
  rw [parseTokens, Session.program, Session.read, Session.ahead_ofTokens hlast hbody, hfile]
  cases programRule (Session.fileOf (body ++ [last])) body <;> rfl

/-- Reading a program succeeds where the rule for programs does. -/
lemma parseTokens_eq_ok {body : List Token} {last : Token} (hlast : last.kind = .endOfFile)
    (hbody : .endOfFile ∉ kinds body) {p : Program} :
    parseTokens (body ++ [last]) = .ok p ↔
      ∃ rest, programRule (Session.fileOf (body ++ [last])) body = .ok p rest := by
  rw [parseTokens_append hlast hbody]
  cases programRule (Session.fileOf (body ++ [last])) body with
  | ok p' rest => simp
  | fail m rest => simp

/-- **Reading accepts exactly the grammar and builds the right tree.** From tokens up to the end
of a file a program is read, and `q` is this program up to spans, exactly if the kinds of the
tokens spell `q` and `q` belongs to the file of the tokens.

**Proof sketch.** A program that is read is spelt by the tokens (`programRule_sound`).  A program
that is spelt within the limit on nesting is read (`programRule_complete`), since phrases cannot
be nested too deeply. -/
theorem parseTokens_ok_iff_sentence {tokens : List Token} (h : EndsOnce tokens) (q : Program) :
    (∃ p, parseTokens tokens = .ok p ∧ p.bare = q) ↔
      Sentence (kinds tokens) q ∧ q.file = Session.fileOf tokens := by
  obtain ⟨body, last, rfl, hlast, hbody⟩ := h
  have hkinds : kinds (body ++ [last]) = kinds body ++ [.endOfFile] := by simp [kinds, hlast]
  rw [hkinds]
  constructor
  · rintro ⟨p, hp, rfl⟩
    obtain ⟨rest, hr⟩ := (parseTokens_eq_ok hlast hbody).1 hp
    exact programRule_sound hbody hr
  · rintro ⟨hq, hfile⟩
    have hgives : (programRule q.file body).Gives Program.bare q [] (maxDepth < maxDepth) :=
      programRule_complete hq
    rcases hgives with ⟨p, rest, hp, -, hr⟩ | ⟨hdeep, -⟩
    · exact ⟨p, (parseTokens_eq_ok hlast hbody).2 ⟨rest, hfile ▸ hr⟩, hp⟩
    · exact absurd hdeep (Nat.lt_irrefl maxDepth)

/-- The tokens of `main() { if (a) if (b) (x) = not c; else f(true).g; }`. -/
def nestedIf : List Token :=
  [.keyword .main, .punct .lparen, .punct .rparen, .punct .lbrace,
   .keyword .if_, .punct .lparen, .identifier "a", .punct .rparen,
   .keyword .if_, .punct .lparen, .identifier "b", .punct .rparen,
   .punct .lparen, .identifier "x", .punct .rparen, .punct .assign, .keyword .not,
   .identifier "c", .punct .semi,
   .keyword .else_, .identifier "f", .punct .lparen, .keyword .true, .punct .rparen,
   .punct .dot, .identifier "g", .punct .semi,
   .punct .rbrace, .endOfFile].map fun k => ⟨k, "", {}, "a.idyl"⟩

/-- The `else` belongs to the inner `if`, and the parentheses around a variable do not keep it
from being assigned to. -/
theorem sentence_nestedIf :
    EndsOnce nestedIf ∧ Sentence (kinds nestedIf)
      ⟨[], [], ⟨"main", .void, [], ⟨[.ifThen (.var "a" {})
        (.ifElse (.var "b" {}) (.eval (.assign "x" (.unary .not (.var "c" {}) {}) {}) {})
          (.eval (.member (.call (.var "f" {}) [.lit (.bool true) {}] {}) "g" {}) {}) {}) {}],
        {}⟩, {}⟩, "a.idyl"⟩ := by
  have h : EndsOnce nestedIf :=
    ⟨nestedIf.dropLast, ⟨.endOfFile, "", {}, "a.idyl"⟩, rfl, rfl, by decide⟩
  exact ⟨h, ((parseTokens_ok_iff_sentence h _).1 ⟨_, rfl, rfl⟩).1⟩

end Idyl
