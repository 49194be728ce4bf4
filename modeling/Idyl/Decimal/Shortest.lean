import Idyl.Decimal.Binary64

/-!
# The shortest decimal that reads back

A floating-point number is shown by the fewest digits that still denote it.  The reals that
round to a number form an interval around it, whose ends belong to it exactly if the number's
code is even.  For one digit, two digits and so on, the two neighbours of the number on the grid
of that many digits are tried; the first grid with a neighbour inside the interval wins, and of
two neighbours the nearer one, the upper one if they are equally near.

## Main definitions

* `Idyl.Binary64.shortest` — the shortest digits and the exponent that belongs to them.
* `Idyl.Binary64.shown` — the text of a number: positional from `10⁻⁴` up to `10¹⁶`, with an
  exponent elsewhere.
-/

set_option autoImplicit false

namespace Idyl.Binary64

/-- The code of the magnitude of a number. -/
def code (x : Binary64) : Nat := x.bits.toNat % signBit

/-- Whether the number carries a minus sign. -/
def isNegative (x : Binary64) : Bool := decide (signBit ≤ x.bits.toNat)

/-- A finite magnitude as `m · 2 ^ k` units. -/
def unitsOfCode (code : Nat) : Nat × Nat :=
  if code < 2 * binade then (code, 0) else (binade + code % binade, code / binade - 1)

/-- The reals that round to a number, in quarter units: the least, the number itself, the
greatest, and whether the ends are included. -/
structure Rounding where
  lower : Nat
  value : Nat
  upper : Nat
  closed : Bool

/-- The interval of a code.  Below a power of two the neighbours lie half as far apart. -/
def roundingOfCode (code : Nat) : Rounding :=
  let (m, k) := unitsOfCode code
  let value := 4 * m * Nat.pow 2 k
  { lower := value - (if m = binade && k ≠ 0 then Nat.pow 2 k else 2 * Nat.pow 2 k)
    value
    upper := value + 2 * Nat.pow 2 k
    closed := m % 2 = 0 }

/-- A decimal number: `digits · 10 ^ exponent`. -/
structure Decimal where
  digits : Nat
  exponent : Int
deriving DecidableEq

/-- The number of decimal digits of a positive number. -/
def digitCount (n : Nat) : Nat := (Nat.toDigits 10 n).length

/-- The exponent of the leading digit of the positive number `num / den`. -/
def leadingExponent (num den : Nat) : Int :=
  if den ≤ num then digitCount (num / den) - 1 else -(digitCount ((den - 1) / num))

/-- The neighbour on the grid `10 ^ exponent` that lies in the interval and is nearest to its
number, if there is one. -/
def nearestOnGrid? (r : Rounding) (exponent : Int) : Option Nat :=
  -- `d · grid` compares with `x · scale` as `d · 10 ^ exponent` with `x` quarter units
  let grid := 4 * unitsPerOne * Nat.pow 10 exponent.toNat
  let scale := Nat.pow 10 (-exponent).toNat
  let inside (d : Nat) : Bool :=
    if r.closed then r.lower * scale ≤ d * grid && d * grid ≤ r.upper * scale
    else r.lower * scale < d * grid && d * grid < r.upper * scale
  let below := r.value * scale / grid
  if inside below && inside (below + 1) then
    some (if 2 * (r.value * scale) < (2 * below + 1) * grid then below else below + 1)
  else if inside below then some below
  else if inside (below + 1) then some (below + 1)
  else none

/-- The decimal on the grids of `count` digits and more, of which there are `grids`. -/
def firstOnGrids (r : Rounding) (leading : Int) (count : Nat) : Nat → Decimal
  | 0 => ⟨0, 0⟩
  | grids + 1 =>
    let exponent := leading + 1 - count
    match nearestOnGrid? r exponent with
    | some d => ⟨d, exponent⟩
    | none => firstOnGrids r leading (count + 1) grids

/-- The shortest decimal that reads back as the positive finite magnitude with this code.
Seventeen digits always suffice. -/
def shortest (code : Nat) : Decimal :=
  let r := roundingOfCode code
  firstOnGrids r (leadingExponent r.value (4 * unitsPerOne)) 1 17

/-! ## Showing a number -/

/-- The digits of a number without the zeros at their end, and how many zeros there were. -/
def stripZeros (digits : Nat) : List Char × Nat :=
  let ds := Nat.toDigits 10 digits
  let kept := (ds.reverse.dropWhile (· = '0')).reverse
  (kept, ds.length - kept.length)

/-- Digits with a point after the first `whole` of them, zeros filled in on both sides, and at
least one digit after the point. -/
def positional (ds : List Char) (whole : Int) : List Char :=
  if whole ≤ 0 then ['0', '.'] ++ List.replicate (-whole).toNat '0' ++ ds
  else
    let n := whole.toNat
    let fraction := ds.drop n
    ds.take n ++ List.replicate (n - ds.length) '0' ++ ['.'] ++
      (if fraction.isEmpty then ['0'] else fraction)

/-- Digits with a point after the first, and the exponent of the first digit. -/
def scientific (ds : List Char) (leading : Int) : List Char :=
  ds.take 1 ++ (if ds.length ≤ 1 then [] else '.' :: ds.drop 1) ++ ['e'] ++
    (toString leading).toList

/-- The text of a magnitude. -/
def magnitudeShown (code : Nat) : List Char :=
  if infinityCode < code then ['N', 'a', 'N']
  else if code = infinityCode then ['i', 'n', 'f']
  else if code = 0 then ['0', '.', '0']
  else
    let d := shortest code
    let (ds, zeros) := stripZeros d.digits
    let leading := d.exponent + zeros + ds.length - 1
    if -4 ≤ leading && leading < 16 then positional ds (leading + 1) else scientific ds leading

/-- The text of a number: the shortest digits that read back, positional from `10⁻⁴` up to
`10¹⁶`, otherwise with an exponent. -/
def shown (x : Binary64) : String :=
  let text := magnitudeShown x.code
  if x.isNegative && x.code ≤ infinityCode then String.ofList ('-' :: text)
  else String.ofList text

end Idyl.Binary64
