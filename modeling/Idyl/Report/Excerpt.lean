import Idyl.Report.Line

/-!
# Excerpts

An excerpt shows the part of a text that a message is about.  A part on one line is underlined
by carets, with the message behind them:

    error: syntax error
      ┌─ a.idyl:3:1
      │
    3 │ }
      │ ^ expected ';' after variable declaration, found '}'

A part that runs over several lines is embraced by a bar at their left.  Of a long part only the
first four lines and the last two are shown.

## Main definitions

* `Idyl.Excerpt` — a message about a range of a text.
* `Idyl.Excerpt.render` — the excerpt as text.
-/

set_option autoImplicit false

namespace Idyl

/-- A message about the byte range from `start` to `stop` of a text. -/
structure Excerpt where
  title : String
  name : String
  text : String
  start : Nat
  stop : Nat
  message : String

namespace Excerpt

/-- Where a line stands in a part that runs over several lines. -/
inductive Mark where
  | top | within | bottom | outside
deriving DecidableEq

/-- After the first line of a part, this many more are shown. -/
def linesAfterTop : Nat := 3

/-- Before the last line of a part, this many are shown. -/
def linesBeforeBottom : Nat := 1

variable (x : Excerpt)

/-- The lines of the text. -/
def lines : List Line := linesOf x.text

/-- The line the part starts on. -/
def firstLine : Line := lineAt x.lines x.start

/-- The line the part ends on. -/
def lastLine : Line := lineAt x.lines x.stop

/-- The width of line numbers.  A part may end before it starts, so either end may have the
larger number. -/
def numberWidth : Nat :=
  (Nat.toDigits 10 (max x.firstLine.number x.lastLine.number)).length

/-- The left margin of a row without a line number. -/
def margin : List Char := List.replicate (x.numberWidth + 1) ' '

/-- The left margin of a row with a line number. -/
def numbered (l : Line) : List Char :=
  let digits := Nat.toDigits 10 l.number
  List.replicate (x.numberWidth - digits.length) ' ' ++ digits ++ [' ']

/-- The message, if there is one, set apart by a blank. -/
def note : List Char := if x.message.isEmpty then [] else ' ' :: x.message.toList

/-! ## A part on one line -/

/-- The underline below a cell of the line.  A cell that overlaps the part gets carets, a cell
before its end gets blanks. -/
def underline (first after : Nat) (c : Cell) : List Char :=
  if c.offset < after && first < c.offset + c.size then List.replicate c.width '^'
  else if c.offset < after then List.replicate c.width ' '
  else []

/-- The rows for a part on one line.  Behind the text there is room for one more caret. -/
def rowsOnLine : List (List Char) :=
  let l := x.firstLine
  let first := x.start - l.start
  let after := max (x.stop - l.start) (first + 1)
  let cells := l.cells ++ [⟨byteLength l.body, 1, 1, []⟩]
  [x.margin ++ ['│'],
   x.numbered l ++ ['│', ' '] ++ l.shown,
   x.margin ++ ['│', ' '] ++ cells.flatMap (underline first after) ++ x.note]

/-! ## A part over several lines -/

/-- Where a line stands in the part. -/
def markOf (i : Nat) : Mark :=
  let first := x.firstLine.index
  let last := x.lastLine.index
  if i = first then .top
  else if i = last then .bottom
  else if first < i && i < last then .within
  else .outside

/-- Whether a line is shown at all events. -/
def isKept (i : Nat) : Bool :=
  match x.markOf i with
  | .top | .bottom => true
  | .within => i - x.firstLine.index ≤ linesAfterTop || x.lastLine.index - i ≤ linesBeforeBottom
  | .outside => false

/-- The rows of a line: its text, and the bar that starts or ends at it. -/
def rowsOf (l : Line) : List (List Char) :=
  let row (bar : Char) := x.numbered l ++ ['│', ' ', bar, ' '] ++ l.shown
  let arm (bar : Char) (width : Nat) :=
    x.margin ++ ['│', ' ', bar] ++ List.replicate width '─' ++ ['^']
  match x.markOf l.index with
  | .top =>
    let offset := x.start - l.start
    if offset ≤ l.indent then [row '╭'] else [row ' ', arm '╭' (l.widthBefore (offset + 1))]
  | .within => [row '│']
  | .bottom => [row '│', arm '╰' (l.widthBefore (x.stop - l.start)) ++ x.note]
  | .outside => [row ' ']

/-- The row that stands for lines left out.  The bar runs on through it. -/
def gap : List Char := x.margin ++ ['·', ' ', '│']

/-- The rows of the lines kept.  A single line between two of them is shown too; more than one
are left out. -/
def rowsOfKept : List Line → List (List Char)
  | [] => []
  | [l] => x.rowsOf l
  | l :: next :: ls =>
    let between := x.lines.filter fun m => l.index < m.index && m.index < next.index
    let middle := match between with
      | [] => []
      | [m] => x.rowsOf m
      | _ => [x.gap]
    x.rowsOf l ++ middle ++ rowsOfKept (next :: ls)

/-- The rows for a part over several lines. -/
def rowsOverLines : List (List Char) :=
  (x.margin ++ ['│', ' ', ' ']) :: x.rowsOfKept (x.lines.filter (x.isKept ·.index))

/-! ## The whole excerpt -/

/-- The rows of the excerpt. -/
def rows : List (List Char) :=
  let l := x.firstLine
  let place := s!"{x.name}:{l.number}:{l.column x.start}"
  [("error: " ++ x.title).toList, x.margin ++ "┌─ ".toList ++ place.toList] ++
    (if l.index = x.lastLine.index then x.rowsOnLine else x.rowsOverLines) ++ [[]]

/-- The excerpt as text, with an empty line at its end. -/
def render : String := String.ofList (x.rows.flatMap (· ++ ['\n']))

end Excerpt

end Idyl
