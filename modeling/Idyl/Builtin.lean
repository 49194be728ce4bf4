import Idyl.Literal

/-!
# What the language provides

Some modules come with the language; any other module is a library that the user wrote.  Of the
modules that come with it only `console` is known by its methods.  Three functions convert
values.

## Main definitions

* `Idyl.isBuiltinModule`, `Idyl.isReserved` — names with a meaning of their own.
* `Idyl.ConsoleMethod`, `Idyl.Conversion` — methods and conversions.
-/

set_option autoImplicit false

namespace Idyl

/-- The modules that come with the language. -/
def builtinModules : List String := ["console", "random", "time", "file"]

/-- Whether a module comes with the language. -/
def isBuiltinModule (name : String) : Bool := builtinModules.contains name

/-- The names that no variable can have. -/
def reservedNames : List String := ["main", "use", "if", "else", "while", "return", "console"]

/-- Whether no variable can have this name. -/
def isReserved (name : String) : Bool := reservedNames.contains name

/-- The module whose methods are known. -/
def consoleModule : String := "console"

/-- The methods of the console. -/
inductive ConsoleMethod where
  | getInt | getFloat | getString | write
deriving DecidableEq

namespace ConsoleMethod

/-- All methods of the console. -/
def all : List ConsoleMethod := [getInt, getFloat, getString, write]

/-- The name of a method. -/
def name : ConsoleMethod → String
  | getInt => "get_int" | getFloat => "get_float" | getString => "get_string" | write => "write"

/-- The method of this name. -/
def ofName? (n : String) : Option ConsoleMethod := all.find? (·.name = n)

/-- The number of arguments a method takes; `none` if it takes any number. -/
def arity? : ConsoleMethod → Option Nat
  | write => none
  | _ => some 0

/-- The type of what a method gives. -/
def returns : ConsoleMethod → Ty
  | getInt => .int | getFloat => .float | getString => .string | write => .void

end ConsoleMethod

/-- Functions that convert a value.  Each takes one argument. -/
inductive Conversion where
  | toText | toInt | toFloat
deriving DecidableEq

namespace Conversion

/-- All conversions. -/
def all : List Conversion := [toText, toInt, toFloat]

/-- The name of a conversion. -/
def name : Conversion → String
  | toText => "to_string" | toInt => "to_int" | toFloat => "to_float"

/-- The conversion of this name. -/
def ofName? (n : String) : Option Conversion := all.find? (·.name = n)

/-- The type of what a conversion gives. -/
def returns : Conversion → Ty
  | toText => .string | toInt => .int | toFloat => .float

end Conversion

end Idyl
