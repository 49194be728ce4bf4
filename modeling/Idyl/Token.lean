import Idyl.Span
import Idyl.Text.Quoted

/-!
# Tokens

A token is a piece of program text that the grammar treats as one symbol: a keyword, a name, a
literal, an operator or a bracket.  Every token knows the text it was read from, where that text
lies and in which file.

## Main definitions

* `Idyl.Keyword`, `Idyl.Punct` — the words and marks with a fixed spelling.
* `Idyl.TokenKind` — what a token is, with the content of names and literals.
* `Idyl.Token` — a kind with its text, span and file.
* `Idyl.TokenKind.shown` — how messages name a token.
-/

set_option autoImplicit false

namespace Idyl

/-- Reserved words. -/
inductive Keyword where
  | use | main | int | float | bool | char | string | void
  | if_ | else_ | while_ | for_ | return_ | function | true | false
  | and | or | not
deriving DecidableEq

namespace Keyword

/-- The spelling of a reserved word. -/
def text : Keyword → String
  | use => "use" | main => "main" | int => "int" | float => "float" | bool => "bool"
  | char => "char" | string => "string" | void => "void" | if_ => "if" | else_ => "else"
  | while_ => "while" | for_ => "for" | return_ => "return" | function => "function"
  | true => "true" | false => "false" | and => "and" | or => "or" | not => "not"

/-- All reserved words. -/
def all : List Keyword :=
  [use, main, int, float, bool, char, string, void, if_, else_, while_, for_, return_, function,
   true, false, and, or, not]

/-- The reserved word with this spelling. -/
def ofText? (word : String) : Option Keyword := all.find? (·.text = word)

end Keyword

/-- Operators and punctuation marks. -/
inductive Punct where
  | assign | plus | minus | star | slash
  | eq | ne | lt | gt | le | ge
  | lparen | rparen | lbracket | rbracket | lbrace | rbrace
  | dot | comma | semi | colon
deriving DecidableEq

namespace Punct

/-- The spelling of a mark. -/
def text : Punct → String
  | assign => "=" | plus => "+" | minus => "-" | star => "*" | slash => "/"
  | eq => "==" | ne => "!=" | lt => "<" | gt => ">" | le => "<=" | ge => ">="
  | lparen => "(" | rparen => ")" | lbracket => "[" | rbracket => "]"
  | lbrace => "\x7b" | rbrace => "\x7d"
  | dot => "." | comma => "," | semi => ";" | colon => ":"

end Punct

/-- What a token is.  Names and numbers carry their text, strings and characters the value they
denote. -/
inductive TokenKind where
  | keyword (word : Keyword)
  | identifier (name : String)
  | integer (text : String)
  | float (text : String)
  | string (value : String)
  | char (value : Char)
  | punct (mark : Punct)
  | endOfFile
deriving DecidableEq

namespace TokenKind

/-- The spelling of a token that can be written in one way only. -/
def fixedText? : TokenKind → Option String
  | keyword word => some word.text
  | punct mark => some mark.text
  | _ => none

/-- Whether the token names a type. -/
def isTypeName : TokenKind → Bool
  | keyword .int | keyword .float | keyword .bool | keyword .char | keyword .string
  | keyword .void => true
  | _ => false

/-- Whether the token names a type that a function declaration may start with.  A function
cannot be declared to return `char`. -/
def startsFunction : TokenKind → Bool
  | keyword .void | keyword .int | keyword .float | keyword .string | keyword .bool => true
  | _ => false

/-- How messages name a token: fixed spellings in quotes, the rest by what it is. -/
def shown : TokenKind → String
  | keyword word => s!"'{word.text}'"
  | punct mark => s!"'{mark.text}'"
  | identifier name => s!"identifier '{name}'"
  | integer text => s!"integer '{text}'"
  | float text => s!"float '{text}'"
  | string value => "string " ++ Quoted.text value
  | char value => "character " ++ Quoted.char value
  | endOfFile => "end of file"

end TokenKind

/-- A token in its place.  `lexeme` is the text it was read from, or for strings and characters
the value they denote. -/
structure Token where
  kind : TokenKind
  lexeme : String
  span : Span
  file : String
deriving DecidableEq

end Idyl
