import Idyl.Text.Printable

/-!
# Quoted text

Texts and characters are quoted when they are shown to the user: the quote, the backslash and
the common controls get a short escape, and a character that could not be told from its
surroundings is written by its code point.

## Main definitions

* `Idyl.Quoted.escape` — how one character stands between a given kind of quotes.
* `Idyl.Quoted.text`, `Idyl.Quoted.char` — a text in double quotes, a character in single ones.
-/

set_option autoImplicit false

namespace Idyl.Quoted

/-- A number in hexadecimal, in lower case and without leading zeros. -/
def hex (n : Nat) : List Char := Nat.toDigits 16 n

/-- A character by its code point, as `\u`, an opening brace, the number, a closing brace. -/
def codePoint (c : Char) : List Char := ['\\', 'u', '\x7b'] ++ hex c.toNat ++ ['\x7d']

/-- The form of a character between quotes of the given kind. -/
def escape (quote c : Char) : List Char :=
  if c = '\x00' then ['\\', '0']
  else if c = '\t' then ['\\', 't']
  else if c = '\r' then ['\\', 'r']
  else if c = '\n' then ['\\', 'n']
  else if c = '\\' then ['\\', '\\']
  else if c = quote then ['\\', c]
  else if isShownRaw c then [c]
  else codePoint c

/-- A text in double quotes. -/
def text (s : String) : String :=
  String.ofList (['"'] ++ s.toList.flatMap (escape '"') ++ ['"'])

/-- A character in single quotes. -/
def char (c : Char) : String :=
  String.ofList (['\''] ++ escape '\'' c ++ ['\''])

end Idyl.Quoted
