import Idyl.Decimal.Binary64

/-!
# Types and literals

The language has six types.  All but `void` have values that can be written down, and each of
those five has a value that a variable gets when no other is given.

## Main definitions

* `Idyl.Ty` — the types.
* `Idyl.Literal` — values that can be written down.
* `Idyl.Ty.default?` — the value of a variable that is declared without one.
* `Idyl.readInt?` — a whole number from its text.
-/

set_option autoImplicit false

namespace Idyl

/-- The types of the language. -/
inductive Ty where
  | int | float | bool | char | string | void
deriving DecidableEq

namespace Ty

/-- All types.  Where two type names fit equally well, the earlier one is meant. -/
def all : List Ty := [int, float, bool, char, string, void]

/-- The name of a type. -/
def name : Ty → String
  | int => "int" | float => "float" | bool => "bool"
  | char => "char" | string => "string" | void => "void"

/-- Whether values of the type are numbers. -/
def isNumeric : Ty → Bool
  | int | float => true
  | _ => false

end Ty

/-- Values that can be written down.  Whole numbers have 64 bits. -/
inductive Literal where
  | int (value : Int64)
  | float (value : Binary64)
  | bool (value : Bool)
  | string (value : String)
  | char (value : Char)
deriving DecidableEq

/-- The value of a variable that is declared without one.  There is none of type `void`. -/
def Ty.default? : Ty → Option Literal
  | int => some (.int 0)
  | float => some (.float (.ofCode false 0))
  | bool => some (.bool false)
  | char => some (.char '\x00')
  | string => some (.string "")
  | void => none

/-- The type of a literal.  A string of one character counts as a character. -/
def Literal.type : Literal → Ty
  | int _ => .int
  | float _ => .float
  | bool _ => .bool
  | string value => if value.length = 1 then .char else .string
  | char _ => .char

/-- The whole number that a text denotes: an optional sign and digits, if it fits in 64 bits. -/
def readInt? (text : String) : Option Int64 :=
  let (negative, ds) := Binary64.splitSign text.toList
  if ds.isEmpty || !ds.all Char.isDigit then none
  else
    let n := Binary64.digitsValue ds
    if negative then if n ≤ Nat.pow 2 63 then some (.ofInt (-(n : Int))) else none
    else if n < Nat.pow 2 63 then some (.ofNat n) else none

end Idyl
