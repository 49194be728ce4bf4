import Idyl.Grammar.Stmt

/-!
# Grammar of programs and libraries

A program is a list of imports, then a list of functions, then `main`, and nothing after it.  A
library holds imports and functions in any order; of its imports nothing is kept.

## Main definitions

* `Idyl.importRule`, `Idyl.functionRule`, `Idyl.mainRule` — declarations.
* `Idyl.programRule`, `Idyl.libraryRule` — whole files.
-/

set_option autoImplicit false

namespace Idyl

open Rule

/-- Reads an import. -/
def importRule : Rule Import := do
  let start ← word .use ""
  let (n, _) ← name "module name after 'use'"
  let semi ← mark .semi "after module name"
  pure ⟨n, start.span.merge semi.span⟩

/-- Reads the parameter of a function, if it has one.  A function has at most one. -/
def paramsRule (function : String) : Rule (List Param) := do
  if (← next) = .punct .rparen then pure []
  else
    let (type, start) ← typeRule
    let (n, span) ← name "parameter name"
    if (← next) = .punct .comma then fault (.secondParameter function)
    else pure [⟨type, n, start.span.merge span⟩]

/-- Reads a function. -/
def functionRule : Rule Function := do
  let (returns, start) ← typeRule
  let _ ← word .function "after return type"
  let (n, _) ← name "function name"
  let _ ← mark .lparen "after function name"
  let params ← paramsRule n
  let _ ← mark .rparen "after parameters"
  let body ← bodyRule
  pure ⟨n, returns, params, body, start.span.merge body.span⟩

/-- Reads the function a program starts with. -/
def mainRule : Rule Function := do
  let start ← word .main ""
  let _ ← mark .lparen "after 'main'"
  let _ ← mark .rparen "after '('"
  let body ← bodyRule
  pure ⟨"main", .void, [], body, start.span.merge body.span⟩

/-- Whether a function is ahead: a type that functions may return, or a name, taken for a
misspelled type, in front of `function`. -/
def functionAhead : List Token → Bool
  | [] => false
  | t :: rest =>
    t.kind.startsFunction ||
      match t.kind with
      | .identifier _ => peek rest = .keyword .function
      | _ => false

/-- Whether an import is ahead. -/
def importAhead (ts : List Token) : Bool := peek ts = .keyword .use

/-- Reads a program. -/
def programRule (file : String) : Rule Program := do
  let imports ← many importAhead importRule
  let functions ← many functionAhead functionRule
  if (← next) = .keyword .main then
    let main ← mainRule
    if (← next) = .endOfFile then pure ⟨imports, functions, main, file⟩
    else expected "end of file after main()"
  else expected "'main' function"

/-- Reads what may stand in a library.  An import gives nothing. -/
def libraryItemRule : Rule (Option Function) := fun ts =>
  if importAhead ts then (do let _ ← importRule; pure none : Rule _) ts
  else if functionAhead ts then (some <$> functionRule) ts
  else fault (.notInLibrary (peek ts)) ts

/-- Reads a library. -/
def libraryRule : Rule (List Function) := do
  let items ← many (fun ts => peek ts ≠ .endOfFile) libraryItemRule
  pure (items.filterMap id)

end Idyl
