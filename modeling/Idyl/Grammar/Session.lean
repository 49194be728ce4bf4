import Idyl.Grammar.Program
import Idyl.Token.Scan

/-!
# Reading programs from tokens

A session holds the tokens of a file and how many of them have been read.  Programs and
libraries are read from where the last reading stopped, whether it succeeded or not.  Tokens end
with an end-of-file token; where it is missing, one is put at the end of the last token.

## Main definitions

* `Idyl.Session`, `Idyl.Session.ofTokens` — tokens and a position among them.
* `Idyl.Session.read` — reading by a rule.
* `Idyl.Session.program`, `Idyl.Session.library` — reading a program, reading a library.
* `Idyl.parseProgram`, `Idyl.parseLibrary` — reading a whole text.
-/

set_option autoImplicit false

namespace Idyl

/-- The tokens of a file, and the number of those that have been read. -/
structure Session where
  tokens : List Token
  pos : Nat := 0

namespace Session

/-- The file a list of tokens belongs to. -/
def fileOf (tokens : List Token) : String :=
  match tokens with
  | [] => "<input>"
  | t :: _ => t.file

/-- The end-of-file token behind a list of tokens: at the end of the last one, on its line and
column. -/
def endToken (tokens : List Token) : Token :=
  { kind := .endOfFile, lexeme := "", file := fileOf tokens
    span := match tokens.getLast? with
      | some t => t.span.atEnd
      | none => {} }

/-- The list of tokens with an end-of-file token at its end. -/
def complete (tokens : List Token) : List Token :=
  match tokens.getLast? with
  | some t => if t.kind = .endOfFile then tokens else tokens ++ [endToken tokens]
  | none => [endToken tokens]

/-- A session at the first of some tokens. -/
def ofTokens (tokens : List Token) : Session := ⟨complete tokens, 0⟩

/-- The file a session reads. -/
def file (s : Session) : String := fileOf s.tokens

/-- The tokens ahead, up to the next end of file. -/
def ahead (s : Session) : List Token :=
  (s.tokens.drop s.pos).takeWhile (·.kind ≠ .endOfFile)

/-- The next end-of-file token. -/
def fileEnd (s : Session) : Token :=
  ((s.tokens.drop s.pos).find? (·.kind = .endOfFile)).getD (endToken s.tokens)

/-- A misread token as an error, placed at the token at fault. -/
def locate (s : Session) (m : Misread) : SyntaxError :=
  let t := m.token.getD s.fileEnd
  ⟨m.fault, t.file, t.span⟩

/-- Reads by a rule.  The session goes on where the rule stopped. -/
def read {α : Type} (s : Session) (rule : Rule α) : Except SyntaxError α × Session :=
  let reply := rule s.ahead
  let after := { s with pos := s.pos + (s.ahead.length - reply.rest.length) }
  match reply with
  | .ok a _ => (.ok a, after)
  | .fail m _ => (.error (s.locate m), after)

/-- Reads a program. -/
def program (s : Session) : Except SyntaxError Program × Session :=
  s.read (programRule s.file)

/-- Reads a library. -/
def library (s : Session) : Except SyntaxError (List Function) × Session :=
  s.read libraryRule

end Session

/-- The program that a list of tokens spells. -/
def parseTokens (tokens : List Token) : Except SyntaxError Program :=
  (Session.ofTokens tokens).program.1

/-- The functions of the library that a list of tokens spells. -/
def parseLibraryTokens (tokens : List Token) : Except SyntaxError (List Function) :=
  (Session.ofTokens tokens).library.1

/-- A session over the tokens of a text. -/
def Session.ofText (text file : String) : Except CompileError Session :=
  match scan text file with
  | .ok tokens => .ok (.ofTokens tokens)
  | .error e => .error e.report

/-- The program that a text spells. -/
def parseProgram (text file : String) : Except CompileError Program :=
  match Session.ofText text file with
  | .ok s => s.program.1.mapError SyntaxError.report
  | .error e => .error e

/-- The functions of the library that a text spells. -/
def parseLibrary (text file : String) : Except CompileError (List Function) :=
  match Session.ofText text file with
  | .ok s => s.library.1.mapError SyntaxError.report
  | .error e => .error e

end Idyl
