/-!
# Edit distance

The distance between two texts is the least number of edits that turn one into the other, an
edit being the insertion, the removal or the replacement of one character.

It is computed row by row.  There is a row for every start of the longer text; it lists the
distances from there to all starts of the shorter text, from the empty one to the whole.  An entry
is found from the one before it and from two of the row above, so no more than two rows are kept.
An entry that is asked for and is not there would end the computation without a result.

## Main definitions

* `Idyl.EditDistance.cell?`, `Idyl.EditDistance.nextRow?` — the next entry of a row, the next row.
* `Idyl.EditDistance.lastRow?` — the row of the whole longer text.
* `Idyl.editDistance?`, `Idyl.editDistance` — the distance between two texts.
-/

set_option autoImplicit false

namespace Idyl

namespace EditDistance

/-- The least of three ways to get from a text that ends in `c` to one that ends in `b`: remove
`c`, insert `b`, or put one in place of the other, which is free if they are equal. -/
def leastEdit (c b : Char) (remove insert replace : Nat) : Nat :=
  min (min (remove + 1) (insert + 1)) (replace + if c = b then 0 else 1)

/-- The entry behind the first `j + 1` entries of a row.  The text of the row ends in `c`, and `b`
is the character of the shorter text at index `j`. -/
def cell? (above row : Array Nat) (c b : Char) (j : Nat) : Option Nat := do
  let remove ← above[j + 1]?
  let insert ← row[j]?
  let replace ← above[j]?
  pure (leastEdit c b remove insert replace)

/-- The row below another one.  Its text has the character `c` at index `i`, where that of the row
above ends. -/
def nextRow? (short : List Char) (above : Array Nat) (c : Char) (i : Nat) : Option (Array Nat) :=
  short.zipIdx.foldlM (fun row x => (cell? above row c x.1 x.2).map row.push) #[i + 1]

/-- The row of the whole of `long`.  In the first row everything is inserted. -/
def lastRow? (long short : List Char) : Option (Array Nat) :=
  long.zipIdx.foldlM (fun above x => nextRow? short above x.1 x.2) (Array.range (short.length + 1))

/-- The last entry of the last row. -/
def lastCell? (long short : List Char) : Option Nat :=
  (lastRow? long short).bind (·[short.length]?)

end EditDistance

/-- The distance between two texts.  The longer text takes the rows, and of two texts of one length
the first does. -/
def editDistance? (a b : String) : Option Nat :=
  let as := a.toList
  let bs := b.toList
  if as.length < bs.length then EditDistance.lastCell? bs as else EditDistance.lastCell? as bs

/-- The least number of insertions, removals and replacements of characters that turn one text
into the other. -/
def editDistance (a b : String) : Nat := (editDistance? a b).getD 0

end Idyl
