import Idyl.Text.Space
import Idyl.Text.Width

/-!
# Lines of a text

A text is shown line by line.  A line ends with its line feed; the last line has none and may be
empty.  What is shown of a line leaves out the characters that end it, and every character
occupies a cell of a certain width, a tab as many columns as lead to the next tab stop.

## Main definitions

* `Idyl.splitLines` — the lines of a text.
* `Idyl.Line`, `Idyl.linesOf`, `Idyl.lineAt` — lines with their places in the text.
* `Idyl.Cell`, `Idyl.Line.cells`, `Idyl.Line.shown` — what is shown of a line.
-/

set_option autoImplicit false

namespace Idyl

/-- The lines of a text, each with the line feed that ends it. -/
def splitLines : List Char → List (List Char)
  | [] => [[]]
  | c :: cs =>
    if c = '\n' then [c] :: splitLines cs
    else
      match splitLines cs with
      | [] => [[c]]
      | l :: ls => (c :: l) :: ls

/-- The number of bytes of some characters. -/
def byteLength (cs : List Char) : Nat := cs.foldr (·.utf8Size + ·) 0

/-- A line of a text: its number, counted from zero, the byte offset it starts at, and its
characters with the line feed. -/
structure Line where
  index : Nat
  start : Nat
  chars : List Char

/-- Lines in their places, the first one having the given number and offset. -/
def placeLines (index start : Nat) : List (List Char) → List Line
  | [] => []
  | l :: ls => ⟨index, start, l⟩ :: placeLines (index + 1) (start + byteLength l) ls

/-- The lines of a text, in their places. -/
def linesOf (text : String) : List Line := placeLines 0 0 (splitLines text.toList)

/-- The line an offset falls on: the last one that starts at or before it. -/
def lineAt (lines : List Line) (offset : Nat) : Line :=
  ((lines.filter (·.start ≤ offset)).getLast?).getD ⟨0, 0, []⟩

/-- A character in its place on a line: the offset of its first byte from the start of the line,
its length in bytes, its width in columns, and what is written for it. -/
structure Cell where
  offset : Nat
  size : Nat
  width : Nat
  shown : List Char

/-- The cells of some characters, the first one at the given offset and column.  Tabs are
written as blanks. -/
def cellsFrom (offset column : Nat) : List Char → List Cell
  | [] => []
  | c :: cs =>
    let width := widthAt column c
    let shown := if c = '\t' then List.replicate width ' ' else [c]
    ⟨offset, c.utf8Size, width, shown⟩ :: cellsFrom (offset + c.utf8Size) (column + width) cs

namespace Line

/-- Whether a character is left out at the end of a line. -/
def isEnding (c : Char) : Bool := c = '\n' || c = '\r' || c = '\x00'

/-- The characters of a line without those that end it. -/
def body (l : Line) : List Char := (l.chars.reverse.dropWhile isEnding).reverse

/-- The number of a line as the user counts. -/
def number (l : Line) : Nat := l.index + 1

/-- What is shown of a line, character by character. -/
def cells (l : Line) : List Cell := cellsFrom 0 0 l.body

/-- What is shown of a line. -/
def shown (l : Line) : List Char := l.cells.flatMap (·.shown)

/-- The bytes of white space that a line starts with. -/
def indent (l : Line) : Nat := byteLength (l.body.takeWhile CharClass.whiteSpace.contains)

/-- The columns of all characters that start before an offset from the start of the line. -/
def widthBefore (l : Line) (offset : Nat) : Nat :=
  (l.cells.filter (·.offset < offset)).foldr (·.width + ·) 0

/-- The column of an offset of the text, counted in characters from one: a character counts if
it ends at or before the offset. -/
def column (l : Line) (offset : Nat) : Nat :=
  ((cellsFrom l.start 0 l.chars).filter (fun c => c.offset + c.size ≤ offset)).length + 1

end Line

end Idyl
