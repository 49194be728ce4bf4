/-!
# Classes of characters

A class of characters is a table of ranges of code points.  The tables of this library list
the ranges in increasing order, so a table is read off as the union of its rows.

## Main definitions

* `Idyl.CharClass` — a table of inclusive ranges.
* `Idyl.CharClass.contains` — whether a character lies in one of them.
-/

set_option autoImplicit false

namespace Idyl

/-- A class of characters: inclusive ranges of code points, in increasing order. -/
structure CharClass where
  ranges : List (Nat × Nat)

/-- Whether the character lies in one of the ranges of the class. -/
def CharClass.contains (k : CharClass) (c : Char) : Bool :=
  k.ranges.any fun r => decide (r.1 ≤ c.toNat) && decide (c.toNat ≤ r.2)

end Idyl
