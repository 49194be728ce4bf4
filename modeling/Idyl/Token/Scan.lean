import Idyl.CompileError
import Idyl.Position
import Idyl.Token.Lexical

/-!
# Scanning a text

A scanner walks over a text and hands out its tokens one after the other, each with its place.
A piece of text that is no token is reported and walked over, so a scanner can be asked again
after a fault; at the end of the text it hands out an end-of-file token as often as asked.

## Main definitions

* `Idyl.Scanner`, `Idyl.Scanner.next` — a text being read, and one step through it.
* `Idyl.Scanner.steps` — all steps up to the end of the text, behind faults too.
* `Idyl.scan` — the tokens of a text, or its first fault.

## Main results

* `Idyl.Scanner.next_rest_length_lt` — a step that is not at the end takes a character.
-/

set_option autoImplicit false

namespace Idyl

/-- A piece of text that is no token. -/
abbrev LexError := Located LexFault

/-- The error that a lexical fault is reported as. -/
def LexError.report (e : LexError) : CompileError := e.toError .lexing LexFault.message

/-- A text being read: what is left of it, and where that starts. -/
structure Scanner where
  file : String
  pos : Position
  rest : List Char

namespace Scanner

/-- A scanner at the start of a text. -/
def ofText (text file : String) : Scanner := ⟨file, .origin, text.toList⟩

/-- The scanner after some characters. -/
def skip (s : Scanner) (n : Nat) : Scanner :=
  { s with pos := s.pos.after (s.rest.take n), rest := s.rest.drop n }

/-- The scanner before the next token, with all blanks behind it. -/
def skipBlanks (s : Scanner) : Scanner := s.skip (blankLength false s.rest)

/-- The text a token is known by: what was read, or the value of a string or character. -/
def lexeme (kind : TokenKind) (text : List Char) : String :=
  match kind with
  | .string value => value
  | .char value => value.toString
  | _ => String.ofList text

/-- Reads the next token, or delimits the next fault. -/
def next (s : Scanner) : Except LexError Token × Scanner :=
  let t := s.skipBlanks
  match t.rest with
  | [] => (.ok ⟨.endOfFile, "", t.pos.spanTo t.pos, t.file⟩, t)
  | c :: cs =>
    let lexed := readToken c cs
    let u := t.skip (lexed.length + 1)
    let span := t.pos.spanTo u.pos
    match lexed.outcome with
    | .ok kind => (.ok ⟨kind, lexeme kind (c :: cs.take lexed.length), span, t.file⟩, u)
    | .error fault => (.error ⟨fault, t.file, span⟩, u)

/-- Whether only blanks are left. -/
def atEnd (s : Scanner) : Bool := s.skipBlanks.rest.isEmpty

/-- The text that is left after some characters. -/
@[simp] theorem skip_rest (s : Scanner) (n : Nat) : (s.skip n).rest = s.rest.drop n := rfl

/-- **Progress.** A step that is not at the end of the text takes at least one character. -/
theorem next_rest_length_lt {s : Scanner} (h : ¬ s.atEnd = true) :
    s.next.2.rest.length < s.rest.length := by
  have hle : s.skipBlanks.rest.length ≤ s.rest.length := by
    simp [skipBlanks]
  unfold next
  dsimp only
  split
  · next hr => simp [atEnd, hr] at h
  · next c cs hr =>
    have hlt : (s.skipBlanks.skip ((readToken c cs).length + 1)).rest.length < s.rest.length := by
      rw [skip_rest, hr, List.drop_succ_cons, List.length_drop]
      rw [hr, List.length_cons] at hle
      omega
    split <;> exact hlt

/-- All steps up to the end of the text.  The last one is the end-of-file token. -/
def steps (s : Scanner) : List (Except LexError Token) :=
  if s.atEnd then [s.next.1] else s.next.1 :: s.next.2.steps
termination_by s.rest.length
decreasing_by
  rename_i h
  exact next_rest_length_lt h

/-- A number of steps, taken also behind the end of the text. -/
def take : Nat → Scanner → List (Except LexError Token)
  | 0, _ => []
  | n + 1, s => s.next.1 :: take n s.next.2

end Scanner

/-- The tokens of a text, ending with the end-of-file token, or the first fault in it. -/
def scan (text file : String) : Except LexError (List Token) :=
  (Scanner.ofText text file).steps.mapM id

end Idyl
