import Mathlib
import Idyl.NameSet
import Idyl.Scope
import Idyl.Tree

/-!
# What it means for a program to be well typed

The typing rules of the language, given as rules and not as a check, with the methods, conversions
and reserved names written out.  An environment is a list of
variables with their types; a rule asks whether a variable belongs to it, so the order of an
environment does not matter and nothing is said about how a variable is found.

An expression can be well formed and still have no type: members other than the length of a
string are not known.  `Types g Γ e t` says that `e` is well formed, and `t` is its type if it
has one.

All statements of a function share one environment, which grows as the statements are passed in
the order of the text.  `Passes g Γ s Γ'` says that `s` is well formed after what was declared
in `Γ`, and `Γ'` is what is declared after it.

## Main definitions

* `Idyl.Typing.Fits`, `Idyl.Typing.Denotes` — which values a variable can hold, and the types of
  literals.
* `Idyl.Typing.Enters`, `Idyl.Typing.Converts`, `Idyl.Typing.Reserved` — names with a meaning of
  their own.
* `Idyl.Typing.Types` — well-formed expressions.
* `Idyl.Typing.Passes` — well-formed statements.
* `Idyl.Typing.WellTypedFunction`, `Idyl.Typing.WellTyped` — well-typed functions and programs.
-/

set_option autoImplicit false

namespace Idyl.Typing

/-- What can be called from anywhere in a program: its functions, and the libraries. -/
structure Callable where
  functions : List String
  libraries : NameSet

/-! ## Values -/

/-- A variable of the first type can hold values of the second. -/
inductive Fits : Ty → Ty → Prop
  | same (t : Ty) : Fits t t
  | widened : Fits .float .int

/-- The types of numbers. -/
inductive Numeric : Ty → Prop
  | int : Numeric .int
  | float : Numeric .float

/-- The type of a sum, difference, product or quotient of numbers of two types. -/
inductive Promoted : Ty → Ty → Ty → Prop
  | ints : Promoted .int .int .int
  | floatLeft {t : Ty} (h : Numeric t) : Promoted .float t .float
  | floatRight {t : Ty} (h : Numeric t) : Promoted t .float .float

/-- The type of a literal.  A string of one character is a character. -/
inductive Denotes : Literal → Ty → Prop
  | int (n : Int64) : Denotes (.int n) .int
  | float (x : Binary64) : Denotes (.float x) .float
  | bool (b : Bool) : Denotes (.bool b) .bool
  | char (c : Char) : Denotes (.char c) .char
  | single (c : Char) : Denotes (.string (String.singleton c)) .char
  | string (text : String) (h : ∀ c, text ≠ String.singleton c) : Denotes (.string text) .string

/-! ## Names with a meaning of their own -/

/-- The methods of the console that read a value, and its type. -/
inductive Enters : String → Ty → Prop
  | int : Enters "get_int" .int
  | float : Enters "get_float" .float
  | string : Enters "get_string" .string

/-- The functions that convert a value, and the type of the outcome. -/
inductive Converts : String → Ty → Prop
  | string : Converts "to_string" .string
  | int : Converts "to_int" .int
  | float : Converts "to_float" .float

/-- The names that no variable can have. -/
inductive Reserved : String → Prop
  | main : Reserved "main"
  | use : Reserved "use"
  | ifWord : Reserved "if"
  | elseWord : Reserved "else"
  | whileWord : Reserved "while"
  | returnWord : Reserved "return"
  | console : Reserved "console"

/-! ## Expressions -/

mutual

/-- Well-formed expressions and their types, in an environment. -/
inductive Types (g : Callable) (Γ : List Binding) : Expr → Option Ty → Prop
  | lit {value : Literal} {t : Ty} {s : Span} (h : Denotes value t) :
      Types g Γ (.lit value s) (some t)
  | var {name : String} {t : Ty} {s : Span} (h : ⟨name, t⟩ ∈ Γ) :
      Types g Γ (.var name s) (some t)
  | assign {name : String} {value : Expr} {t : Ty} {v : Option Ty} {s : Span}
      (htarget : ⟨name, t⟩ ∈ Γ) (hvalue : Types g Γ value v) (hfits : ∀ u ∈ v, Fits t u) :
      Types g Γ (.assign name value s) (some t)
  | arithmetic {op : BinaryOp} {left right : Expr} {l r t : Ty} {s : Span}
      (hop : op ∈ [.add, .sub, .mul, .div]) (hleft : Types g Γ left (some l))
      (hright : Types g Γ right (some r)) (ht : Promoted l r t) :
      Types g Γ (.binary op left right s) (some t)
  | comparison {op : BinaryOp} {left right : Expr} {l r : Option Ty} {s : Span}
      (hop : op ∈ [.eq, .ne, .lt, .le, .gt, .ge]) (hleft : Types g Γ left l)
      (hright : Types g Γ right r) : Types g Γ (.binary op left right s) (some .bool)
  | logical {op : BinaryOp} {left right : Expr} {l r : Option Ty} {s : Span}
      (hop : op ∈ [.and, .or]) (hleft : Types g Γ left l) (hright : Types g Γ right r) :
      Types g Γ (.binary op left right s) l
  | not {operand : Expr} {s : Span} (h : Types g Γ operand (some .bool)) :
      Types g Γ (.unary .not operand s) (some .bool)
  | neg {operand : Expr} {t : Ty} {s : Span} (h : Types g Γ operand (some t))
      (ht : Numeric t) : Types g Γ (.unary .neg operand s) (some t)
  | stringLength {object : Expr} {s : Span} (h : Types g Γ object (some .string)) :
      Types g Γ (.member object "length" s) (some .int)
  | member {object : Expr} {t : Option Ty} {name : String} {s : Span}
      (h : Types g Γ object t) (hother : ¬(t = some .string ∧ name = "length")) :
      Types g Γ (.member object name s) none
  | enter {method : String} {t : Ty} {s₁ s₂ s₃ : Span} (h : Enters method t) :
      Types g Γ (.call (.member (.var "console" s₁) method s₂) [] s₃) (some t)
  | write {args : List Expr} {s₁ s₂ s₃ : Span} (hargs : Arguments g Γ args) :
      Types g Γ (.call (.member (.var "console" s₁) "write" s₂) args s₃) (some .void)
  | library {module method : String} {args : List Expr} {s₁ s₂ s₃ : Span}
      (hargs : Arguments g Γ args) (hother : module ≠ "console") (h : module ∈ g.libraries) :
      Types g Γ (.call (.member (.var module s₁) method s₂) args s₃) (some .void)
  | conversion {name : String} {t : Ty} {arg : Expr} {v : Option Ty} {s₁ s₂ : Span}
      (h : Converts name t) (harg : Types g Γ arg v) :
      Types g Γ (.call (.var name s₁) [arg] s₂) (some t)
  | function {name : String} {args : List Expr} {s₁ s₂ : Span} (hargs : Arguments g Γ args)
      (hother : ∀ t, ¬Converts name t) (h : name ∈ g.functions) :
      Types g Γ (.call (.var name s₁) args s₂) (some .void)

/-- Arguments of a call, each of them well formed. -/
inductive Arguments (g : Callable) (Γ : List Binding) : List Expr → Prop
  | nil : Arguments g Γ []
  | cons {e : Expr} {es : List Expr} {t : Option Ty} (h : Types g Γ e t)
      (hs : Arguments g Γ es) : Arguments g Γ (e :: es)

end

/-! ## Statements -/

/-- No variable of this name is declared. -/
def Fresh (name : String) (Γ : List Binding) : Prop := ∀ t, ⟨name, t⟩ ∉ Γ

mutual

/-- Well-formed statements, with the variables declared before and after them.  A variable
whose first value has no type stays unknown. -/
inductive Passes (g : Callable) : List Binding → Stmt → List Binding → Prop
  | declare {Γ : List Binding} {type v : Ty} {name : String} {init : Expr} {s : Span}
      (hname : ¬Reserved name) (hfresh : Fresh name Γ) (hinit : Types g Γ init (some v))
      (hfits : Fits type v) : Passes g Γ (.declare type name init s) (⟨name, type⟩ :: Γ)
  | declareUnknown {Γ : List Binding} {type : Ty} {name : String} {init : Expr} {s : Span}
      (hname : ¬Reserved name) (hfresh : Fresh name Γ) (hinit : Types g Γ init none) :
      Passes g Γ (.declare type name init s) Γ
  | eval {Γ : List Binding} {e : Expr} {t : Option Ty} {s : Span} (h : Types g Γ e t) :
      Passes g Γ (.eval e s) Γ
  | block {Γ Γ' : List Binding} {body : List Stmt} {s : Span} (h : PassesAll g Γ body Γ') :
      Passes g Γ (.block body s) Γ'
  | ifThen {Γ Γ' : List Binding} {condition : Expr} {c : Option Ty} {thenBranch : Stmt} {s : Span}
      (hc : Types g Γ condition c) (ht : Passes g Γ thenBranch Γ') :
      Passes g Γ (.ifThen condition thenBranch s) Γ'
  | ifElse {Γ Γ₁ Γ₂ : List Binding} {condition : Expr} {c : Option Ty}
      {thenBranch elseBranch : Stmt} {s : Span} (hc : Types g Γ condition c)
      (ht : Passes g Γ thenBranch Γ₁) (he : Passes g Γ₁ elseBranch Γ₂) :
      Passes g Γ (.ifElse condition thenBranch elseBranch s) Γ₂
  | while_ {Γ Γ' : List Binding} {condition : Expr} {c : Option Ty} {body : Stmt} {s : Span}
      (hc : Types g Γ condition c) (hb : Passes g Γ body Γ') :
      Passes g Γ (.while_ condition body s) Γ'
  | returnNone {Γ : List Binding} {s : Span} : Passes g Γ (.return_ none s) Γ
  | returnSome {Γ : List Binding} {e : Expr} {t : Option Ty} {s : Span} (h : Types g Γ e t) :
      Passes g Γ (.return_ (some e) s) Γ

/-- Well-formed statements one after the other. -/
inductive PassesAll (g : Callable) : List Binding → List Stmt → List Binding → Prop
  | nil {Γ : List Binding} : PassesAll g Γ [] Γ
  | cons {Γ Γ₁ Γ₂ : List Binding} {s : Stmt} {ss : List Stmt} (h : Passes g Γ s Γ₁)
      (hs : PassesAll g Γ₁ ss Γ₂) : PassesAll g Γ (s :: ss) Γ₂

end

/-! ## Functions and programs -/

/-- The parameters of a function are its first variables. -/
def paramBindings (params : List Param) : List Binding := params.map fun p => ⟨p.name, p.type⟩

/-- A function is well typed if its parameters have different names and its statements pass, from
the first to the last. -/
structure WellTypedFunction (g : Callable) (f : Function) : Prop where
  params : (f.params.map (·.name)).Nodup
  body : ∃ Γ, PassesAll g (paramBindings f.params) f.body.body Γ

/-- A program is well typed, next to the given libraries, if its functions have different names
and each of them is well typed, `main` included. -/
structure WellTyped (p : Program) (libraries : NameSet) : Prop where
  names : (p.functions.map (·.name)).Nodup
  functions : ∀ f ∈ p.functions, WellTypedFunction ⟨p.functions.map (·.name), libraries⟩ f
  main : WellTypedFunction ⟨p.functions.map (·.name), libraries⟩ p.main

end Idyl.Typing
