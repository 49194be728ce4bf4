/-!
# Floating-point numbers of 64 bits

The language's `float` values are IEEE 754 numbers of double precision.  They are kept as their
bits, and everything about them is exact arithmetic on natural numbers: a finite value is a
whole number of *units*, a unit being the least positive value `2⁻¹⁰⁷⁴`.

A magnitude is coded by a number below `infinityCode`.  Codes are ordered as the values they
stand for, and a value of `m · 2ᵏ` units, where `2⁵² ≤ m < 2⁵³` unless `k = 0`, has the code
`k · 2⁵² + m`; so a code that overflows the `m` of its own `k` is the code of the next power of
two, and rounding needs no second normalisation.

## Main definitions

* `Idyl.Binary64` — a floating-point number, by its bits.
* `Idyl.Binary64.ofDecimal` — the number nearest to `mantissa · 10 ^ exponent`.
* `Idyl.Binary64.ofText?` — a number from its decimal text.
-/

set_option autoImplicit false

namespace Idyl

/-- A floating-point number of double precision. -/
structure Binary64 where
  bits : UInt64
deriving DecidableEq

/-- The quotient of two numbers, rounded to the nearest whole number, a half to the even one. -/
def roundDiv (num den : Nat) : Nat :=
  let q := num / den
  let r := num % den
  if 2 * r < den then q
  else if den < 2 * r then q + 1
  else if q % 2 = 0 then q
  else q + 1

namespace Binary64

/-- The number of values between two powers of two. -/
def binade : Nat := Nat.pow 2 52

/-- The number of units in one. -/
def unitsPerOne : Nat := Nat.pow 2 1074

/-- The code of infinity, larger than that of every finite magnitude. -/
def infinityCode : Nat := 0x7ff * binade

/-- The bit that marks a negative number. -/
def signBit : Nat := Nat.pow 2 63

/-- The number with the given sign and code of its magnitude. -/
def ofCode (negative : Bool) (code : Nat) : Binary64 :=
  ⟨.ofNat (if negative then signBit + code else code)⟩

/-- Positive infinity, or negative infinity. -/
def infinity (negative : Bool) : Binary64 := ofCode negative infinityCode

/-- A result that is no number. -/
def nan (negative : Bool) : Binary64 := ofCode negative (infinityCode + binade / 2)

/-- The code of the magnitude nearest to `num / den` units, a half to the even one.  Too large
a magnitude becomes infinity. -/
def codeOfUnits (num den : Nat) : Nat :=
  let whole := num / den
  let shift := if whole < 2 * binade then 0 else whole.log2 - 52
  min infinityCode (shift * binade + roundDiv num (den * Nat.pow 2 shift))

/-- The code of the magnitude nearest to `mantissa · 10 ^ exponent`.  A value of more than 310
digits before the point is infinite, and one whose first 330 digits after it are zero is zero,
so a long exponent costs nothing. -/
def codeOfDecimal (mantissa : Nat) (exponent : Int) : Nat :=
  if mantissa = 0 then 0
  else
    let digits : Int := (Nat.toDigits 10 mantissa).length
    if 310 < exponent + digits then infinityCode
    else if exponent + digits < -330 then 0
    else if 0 ≤ exponent then codeOfUnits (mantissa * Nat.pow 10 exponent.toNat * unitsPerOne) 1
    else codeOfUnits (mantissa * unitsPerOne) (Nat.pow 10 (-exponent).toNat)

/-- The number nearest to `mantissa · 10 ^ exponent`, with a sign. -/
def ofDecimal (negative : Bool) (mantissa : Nat) (exponent : Int) : Binary64 :=
  ofCode negative (codeOfDecimal mantissa exponent)

/-! ## Reading decimal text -/

/-- The value of a run of decimal digits. -/
def digitsValue (ds : List Char) : Nat :=
  ds.foldl (fun n d => 10 * n + (d.toNat - '0'.toNat)) 0

/-- A sign, if one is written, and what follows it. -/
def splitSign : List Char → Bool × List Char
  | '-' :: cs => (true, cs)
  | '+' :: cs => (false, cs)
  | cs => (false, cs)

/-- The exponent part of a number: nothing, or `e` with a whole number. -/
def exponentValue? : List Char → Option Int
  | [] => some 0
  | c :: cs =>
    if c = 'e' || c = 'E' then
      let (negative, ds) := splitSign cs
      if ds.isEmpty || !ds.all Char.isDigit then none
      else
        let n : Int := digitsValue ds
        some (if negative then -n else n)
    else none

/-- The digits after a decimal point, if there is one, and what follows them. -/
def splitFraction : List Char → List Char × List Char
  | '.' :: cs => (cs.takeWhile Char.isDigit, cs.dropWhile Char.isDigit)
  | cs => ([], cs)

/-- The number written by digits, an optional point with digits after it, and an optional
exponent.  Digits may be missing on one side of the point. -/
def unsignedDecimal? (negative : Bool) (cs : List Char) : Option Binary64 :=
  let whole := cs.takeWhile Char.isDigit
  let (fraction, rest) := splitFraction (cs.dropWhile Char.isDigit)
  if whole.isEmpty && fraction.isEmpty then none
  else
    (exponentValue? rest).map fun e =>
      ofDecimal negative (digitsValue (whole ++ fraction)) (e - fraction.length)

/-- The number that a decimal text denotes: an optional sign, then a decimal number or one of
the words `inf`, `infinity` and `nan` in any case. -/
def ofText? (text : String) : Option Binary64 :=
  let (negative, cs) := splitSign text.toList
  let word := String.ofList (cs.map Char.toLower)
  if word = "inf" || word = "infinity" then some (infinity negative)
  else if word = "nan" then some (nan negative)
  else unsignedDecimal? negative cs

end Binary64

end Idyl
