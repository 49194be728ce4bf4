import Idyl.Literal

/-!
# Scopes

A scope holds the variables that are known at a place of a function, each with its type.  All
blocks of a function share one scope: a name is declared at most once in a function, and it
stays known to its end.

## Main definitions

* `Idyl.Binding`, `Idyl.Scope` — a variable with its type, and the variables known.
* `Idyl.Scope.lookup`, `Idyl.Scope.define` — asking for a variable, adding one.

## Main results

* `Idyl.Scope.lookup_bind` — what is found after a variable was added.
-/

set_option autoImplicit false

namespace Idyl

/-- A variable and its type. -/
structure Binding where
  name : String
  type : Ty
deriving DecidableEq

/-- The variables known, the latest first. -/
structure Scope where
  bindings : List Binding := []
deriving DecidableEq

namespace Scope

/-- The variable of this name. -/
def lookup (s : Scope) (name : String) : Option Binding := s.bindings.find? (·.name = name)

/-- The type of the variable of this name. -/
def typeOf? (s : Scope) (name : String) : Option Ty := (s.lookup name).map (·.type)

/-- Whether there is a variable of this name. -/
def contains (s : Scope) (name : String) : Bool := (s.lookup name).isSome

/-- The number of variables. -/
def size (s : Scope) : Nat := s.bindings.length

/-- The scope with one more variable. -/
def bind (s : Scope) (b : Binding) : Scope := ⟨b :: s.bindings⟩

/-- Adds a variable, unless there is one of its name, which is given instead. -/
def define (s : Scope) (b : Binding) : Except Binding Scope :=
  match s.lookup b.name with
  | some old => .error old
  | none => .ok (s.bind b)

/-- The latest variable of a name is found. -/
@[simp] theorem lookup_bind (s : Scope) (b : Binding) (name : String) :
    (s.bind b).lookup name = if b.name = name then some b else s.lookup name := by
  by_cases h : b.name = name <;> simp [lookup, bind, h]

end Scope

end Idyl
