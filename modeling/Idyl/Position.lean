import Idyl.Span

/-!
# Positions in a text

A position is a byte offset together with its line and column.  Lines end at a line feed and
nowhere else, and columns count characters, so the position after a text is found by stepping
over its characters one by one.

A line index finds line and column of any offset without stepping: it holds the offsets at which
the lines of a text start, and looks for the last of them that is not behind the offset.

## Main definitions

* `Idyl.Position`, `Idyl.Position.next`, `Idyl.Position.after` — positions and stepping.
* `Idyl.Position.spanTo` — the span between two positions.
* `Idyl.search` — binary search.
* `Idyl.slice?` — the characters of a byte range.
* `Idyl.Overflow` — numbers that do not fit.
* `Idyl.LineIndex`, `Idyl.LineIndex.locate?`, `Idyl.LineIndex.location?` — the lines of a text, and
  the line and column of any byte offset.
* `Idyl.spanOf` — the span of a byte range of a text.
-/

set_option autoImplicit false

namespace Idyl

/-- A place between two characters of a text: its byte offset, and its line and column counted
from one. -/
structure Position where
  offset : Nat
  line : UInt32
  column : UInt32
deriving DecidableEq

namespace Position

/-- The position before the first character of a text. -/
def origin : Position := ⟨0, 1, 1⟩

instance : Inhabited Position := ⟨origin⟩

/-- The position after one more character: a line feed starts a line, any other character
takes one column. -/
def next (p : Position) (c : Char) : Position :=
  if c = '\n' then ⟨p.offset + c.utf8Size, p.line + 1, 1⟩
  else ⟨p.offset + c.utf8Size, p.line, p.column + 1⟩

/-- The position after some more characters. -/
def after (p : Position) (cs : List Char) : Position := cs.foldl next p

/-- The span from one position to another. -/
def spanTo (p q : Position) : Span := ⟨p.offset, q.offset, p.line, p.column⟩

end Position

/-! ## Searching and slicing -/

/-- Where a number stands among increasing numbers: at an index, or, if it is missing, in front of
the one at an index. -/
inductive Rank where
  | found (index : Nat)
  | missing (index : Nat)
deriving DecidableEq

/-- Binary search for a number among the increasing numbers from index `lo` up to index `hi`. -/
def searchWithin (xs : Array Nat) (x lo hi : Nat) (hhi : hi ≤ xs.size) : Rank :=
  if hlt : lo < hi then
    let mid := (lo + hi) / 2
    have hmid : mid < xs.size := by omega
    if xs[mid] = x then .found mid
    else if xs[mid] < x then searchWithin xs x (mid + 1) hi hhi
    else searchWithin xs x lo mid (Nat.le_of_lt hmid)
  else .missing lo
termination_by hi - lo

/-- Binary search for a number among increasing numbers. -/
def search (xs : Array Nat) (x : Nat) : Rank := searchWithin xs x 0 xs.size (Nat.le_refl _)

/-- The characters that take a number of bytes, and those behind them.  There are none if the bytes
end inside a character or behind the last one. -/
def splitBytes? : Nat → List Char → Option (List Char × List Char)
  | 0, cs => some ([], cs)
  | _ + 1, [] => none
  | n + 1, c :: cs =>
    if c.utf8Size ≤ n + 1 then
      (splitBytes? (n + 1 - c.utf8Size) cs).map fun parts => (c :: parts.1, parts.2)
    else none

/-- The characters of a byte range of a text.  There are none if the range runs backwards, ends
behind the text, or starts or ends inside a character. -/
def slice? (text : String) (start stop : Nat) : Option (List Char) :=
  if start ≤ stop then
    (splitBytes? start text.toList).bind fun parts =>
      (splitBytes? (stop - start) parts.2).map Prod.fst
  else none

/-! ## Numbers of 32 bits -/

/-- What becomes of a number that does not fit in 32 bits: it goes on from zero, or the computation
stops without a result. -/
inductive Overflow where
  | wraps | stops
deriving DecidableEq

/-- One more than a number of 32 bits. -/
def Overflow.succ? : Overflow → UInt32 → Option UInt32
  | wraps, n => some (n + 1)
  | stops, n => if n + 1 = 0 then none else some (n + 1)

/-! ## Line indices -/

/-- The byte offsets at which the lines of a text start. -/
structure LineIndex where
  starts : Array Nat
deriving DecidableEq

namespace LineIndex

/-- The offsets behind the line feeds of some characters, the first of which has the given
offset. -/
def startsFrom (offset : Nat) : List Char → List Nat
  | [] => []
  | c :: cs =>
    if c = '\n' then (offset + 1) :: startsFrom (offset + 1) cs
    else startsFrom (offset + c.utf8Size) cs

/-- The line index of a text.  The first line starts with the text. -/
def ofText (text : String) : LineIndex := ⟨(0 :: startsFrom 0 text.toList).toArray⟩

/-- The number, counted from zero, of the line that an offset falls on: the last one that starts at
or before it. -/
def line? (index : LineIndex) (offset : Nat) : Option Nat :=
  match search index.starts offset with
  | .found line => some line
  | .missing 0 => none
  | .missing (next + 1) => some next

/-- Line and column of a byte offset, counted from one.  An offset that falls inside a character,
or past the end of the text, is put at column one of the line it falls on. -/
def locate? (index : LineIndex) (overflow : Overflow) (text : String) (offset : Nat) :
    Option (UInt32 × UInt32) := do
  let line ← index.line? offset
  let start ← index.starts[line]?
  let column := (slice? text start offset).elim 0 List.length
  let lineNumber ← overflow.succ? (UInt32.ofNat line)
  let columnNumber ← overflow.succ? (UInt32.ofNat column)
  pure (lineNumber, columnNumber)

/-- Line and column of a byte offset, where a number that does not fit goes on from zero. -/
def location? (index : LineIndex) (text : String) (offset : Nat) : Option (UInt32 × UInt32) :=
  index.locate? .wraps text offset

/-- The span of a byte range, positioned where the range starts. -/
def span? (index : LineIndex) (text : String) (start stop : Nat) : Option Span :=
  (index.location? text start).map fun place => ⟨start, stop, place.1, place.2⟩

end LineIndex

/-- The span of a byte range of a text, positioned where the range starts.  In the index of a text
every offset has a location, so there always is one. -/
def spanOf (text : String) (start stop : Nat) : Span :=
  ((LineIndex.ofText text).span? text start stop).getD {}

end Idyl
