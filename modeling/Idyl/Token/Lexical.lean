import Idyl.Token

/-!
# Recognising a token

Program text is cut into tokens from left to right.  Blanks and comments are skipped; what
stands next is then read as the longest piece of text that its first character can start: a
word, a number, a string, a character, or a mark.  Where none fits, the piece of text at fault
is delimited instead, so reading can go on behind it.

## Main definitions

* `Idyl.LexFault` — why a piece of text is no token.
* `Idyl.blankLength` — the number of characters skipped before a token.
* `Idyl.readString`, `Idyl.readChar`, `Idyl.readNumber`, `Idyl.readWord` — the forms of tokens.
* `Idyl.readToken` — the token, or fault, that starts with a given character.
-/

set_option autoImplicit false

namespace Idyl

/-- Why a piece of text is no token. -/
inductive LexFault where
  | unexpected (c : Char)
  | unterminatedString
  | unterminatedEscape
  | unterminatedChar
  | emptyChar
  | lineBreakInChar
  | unknownEscape (c : Char)
  | overlongChar
deriving DecidableEq

/-- The text of a lexical fault. -/
def LexFault.message : LexFault → String
  | unexpected c =>
    if c = '!' then "unexpected '!': use '!=' for inequality or 'not' for negation"
    else s!"unexpected character '{c}'"
  | unterminatedString => "unterminated string literal"
  | unterminatedEscape => "unterminated escape sequence in string literal"
  | unterminatedChar => "unterminated character literal"
  | emptyChar => "empty character literal"
  | lineBreakInChar => "character literal cannot contain a line break"
  | unknownEscape c => s!"unknown escape sequence '\\{c}' in character literal"
  | overlongChar => "character literal must contain exactly one character"

/-! ## Blanks -/

/-- The characters that separate tokens. -/
def isBlank (c : Char) : Bool := c = ' ' || c = '\t' || c = '\r' || c = '\n'

/-- The number of characters before the next token: blanks, and comments from `//` up to the
end of their line.  The flag says whether the text starts inside a comment. -/
def blankLength (inComment : Bool) : List Char → Nat
  | [] => 0
  | c :: cs =>
    if inComment then blankLength (c ≠ '\n') cs + 1
    else if isBlank c then blankLength false cs + 1
    else
      match cs with
      | d :: ds => if c = '/' && d = '/' then blankLength true ds + 2 else 0
      | [] => 0

/-! ## Tokens -/

/-- What was read: a token or a fault, and the number of characters it takes beyond the one it
starts with. -/
structure Lexed where
  outcome : Except LexFault TokenKind
  length : Nat

/-- Characters that can start a word. -/
def isWordStart (c : Char) : Bool := c.isAlpha || c = '_'

/-- Characters that can continue a word. -/
def isWordRest (c : Char) : Bool := c.isAlphanum || c = '_'

/-- A word, after its first character: a keyword if all of it is one, otherwise a name. -/
def readWord (c : Char) (cs : List Char) : Lexed :=
  let tail := cs.takeWhile isWordRest
  let word := String.ofList (c :: tail)
  let kind := match Keyword.ofText? word with
    | some k => TokenKind.keyword k
    | none => TokenKind.identifier word
  ⟨.ok kind, tail.length⟩

/-- The fraction of a number: a point, if a digit follows it, and all digits after it. -/
def readFraction : List Char → List Char
  | '.' :: d :: cs => if d.isDigit then '.' :: d :: cs.takeWhile Char.isDigit else []
  | _ => []

/-- A number, after its first digit: a whole number, or a decimal one if a fraction follows. -/
def readNumber (c : Char) (cs : List Char) : Lexed :=
  let whole := cs.takeWhile Char.isDigit
  let fraction := readFraction (cs.drop whole.length)
  let text := String.ofList (c :: (whole ++ fraction))
  ⟨.ok (if fraction.isEmpty then .integer text else .float text), whole.length + fraction.length⟩

/-- The text that a backslash and the character after it stand for inside a string.  An unknown
escape stands for itself. -/
def stringEscape (c : Char) : List Char :=
  if c = 'n' then ['\n']
  else if c = 't' then ['\t']
  else if c = 'r' then ['\r']
  else if c = '"' then ['"']
  else if c = '\\' then ['\\']
  else if c = 'e' then ['\x1b']
  else ['\\', c]

/-- The body of a string, after its opening quote: the value it denotes, and its length with
the closing quote.  Without a closing quote the string takes all the text that is left. -/
def readStringBody : List Char → Except LexFault (List Char) × Nat
  | [] => (.error .unterminatedString, 0)
  | '"' :: _ => (.ok [], 1)
  | ['\\'] => (.error .unterminatedEscape, 1)
  | '\\' :: c :: cs =>
    let (value, length) := readStringBody cs
    (value.map (stringEscape c ++ ·), length + 2)
  | c :: cs =>
    let (value, length) := readStringBody cs
    (value.map (c :: ·), length + 1)

/-- A string, after its opening quote. -/
def readString (cs : List Char) : Lexed :=
  let (value, length) := readStringBody cs
  ⟨value.map fun v => .string (String.ofList v), length⟩

/-- The character that a backslash and the character after it stand for inside a character
literal. -/
def charEscape? (c : Char) : Option Char :=
  if c = 'n' then some '\n'
  else if c = 't' then some '\t'
  else if c = 'r' then some '\r'
  else if c = '\\' then some '\\'
  else if c = '\'' then some '\''
  else if c = '"' then some '"'
  else none

/-- The end of a character literal, after the value it denotes, which took `length`
characters: a closing quote has to follow. -/
def closeChar (value : Char) (length : Nat) : List Char → Lexed
  | [] => ⟨.error .unterminatedChar, length⟩
  | c :: _ =>
    if c = '\'' then ⟨.ok (.char value), length + 1⟩ else ⟨.error .overlongChar, length⟩

/-- A character literal, after its opening quote. -/
def readChar : List Char → Lexed
  | [] => ⟨.error .unterminatedChar, 0⟩
  | '\'' :: _ => ⟨.error .emptyChar, 1⟩
  | '\n' :: _ => ⟨.error .lineBreakInChar, 1⟩
  | ['\\'] => ⟨.error .unterminatedChar, 1⟩
  | '\\' :: c :: cs =>
    match charEscape? c with
    | some value => closeChar value 2 cs
    | none => ⟨.error (.unknownEscape c), 2⟩
  | c :: cs => closeChar c 1 cs

/-- The mark that starts with a character, given the character after it, and whether it takes
that one too. -/
def punctOf? (c : Char) (after : Option Char) : Option (Punct × Bool) :=
  let orEq (short long : Punct) := if after = some '=' then (long, true) else (short, false)
  match c with
  | '=' => some (orEq .assign .eq)
  | '<' => some (orEq .lt .le)
  | '>' => some (orEq .gt .ge)
  | '!' => if after = some '=' then some (.ne, true) else none
  | '+' => some (.plus, false)
  | '-' => some (.minus, false)
  | '*' => some (.star, false)
  | '/' => some (.slash, false)
  | '(' => some (.lparen, false)
  | ')' => some (.rparen, false)
  | '[' => some (.lbracket, false)
  | ']' => some (.rbracket, false)
  | '\x7b' => some (.lbrace, false)
  | '\x7d' => some (.rbrace, false)
  | '.' => some (.dot, false)
  | ',' => some (.comma, false)
  | ';' => some (.semi, false)
  | ':' => some (.colon, false)
  | _ => none

/-- An operator or punctuation mark, the longest that fits.  Any other character is a fault by
itself. -/
def readPunct (c : Char) (cs : List Char) : Lexed :=
  match punctOf? c cs.head? with
  | some (mark, pair) => ⟨.ok (.punct mark), if pair then 1 else 0⟩
  | none => ⟨.error (.unexpected c), 0⟩

/-- The token, or the fault, that starts with the character `c` and goes on in `cs`. -/
def readToken (c : Char) (cs : List Char) : Lexed :=
  if isWordStart c then readWord c cs
  else if c.isDigit then readNumber c cs
  else if c = '"' then readString cs
  else if c = '\'' then readChar cs
  else readPunct c cs

end Idyl
