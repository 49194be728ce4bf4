import Idyl.Span

/-!
# Errors of compilation

Each stage describes what went wrong in its own terms and says where.  Towards the user all
errors have one form: the stage, a message, and the place in a file; or, for a library that
cannot be had, its name and path.

## Main definitions

* `Idyl.Located` — a fault of some stage with its place.
* `Idyl.Stage`, `Idyl.CompileError` — an error as it is reported.
* `Idyl.CompileError.shown` — the text of an error with its place.
* `Idyl.Diagnostics` — errors in the order in which they were found.
-/

set_option autoImplicit false

namespace Idyl

/-- A fault and the place it was found at. -/
structure Located (φ : Type) where
  fault : φ
  file : String
  span : Span
deriving DecidableEq

/-- The stages that find faults in program text. -/
inductive Stage where
  | lexing | parsing | checking
deriving DecidableEq

/-- What kind of error a stage reports. -/
def Stage.title : Stage → String
  | lexing | parsing => "syntax error"
  | checking => "semantic error"

/-- An error as it is reported. -/
inductive CompileError where
  /-- A fault in program text. -/
  | inText (stage : Stage) (message : String) (file : String) (span : Span)
  /-- A library that does not exist. -/
  | libraryNotFound (name path : String)
  /-- A library that exists and cannot be read. -/
  | libraryUnreadable (name path reason : String)
deriving DecidableEq

namespace CompileError

/-- What went wrong, without the place. -/
def message : CompileError → String
  | inText _ message _ _ => message
  | libraryNotFound name path => s!"library '{name}' not found: {path}"
  | libraryUnreadable name path reason => s!"cannot read library '{name}' from {path}: {reason}"

/-- What went wrong and where. -/
def shown : CompileError → String
  | inText stage message file span => s!"{file}:{span.shown}: {stage.title}: {message}"
  | e => e.message

/-- The file at fault, for an error in program text. -/
def file? : CompileError → Option String
  | inText _ _ file _ => some file
  | _ => none

/-- The text at fault, for an error in program text. -/
def span? : CompileError → Option Span
  | inText _ _ _ span => some span
  | _ => none

/-- Whether the text is not of the form of a program. -/
def isSyntactic : CompileError → Bool
  | inText .lexing _ _ _ | inText .parsing _ _ _ => true
  | _ => false

/-- Whether a program of the right form breaks a rule of the language. -/
def isSemantic : CompileError → Bool
  | inText .checking _ _ _ => true
  | _ => false

end CompileError

/-- A fault as an error of its stage, given the wording of faults. -/
def Located.toError {φ : Type} (e : Located φ) (stage : Stage) (message : φ → String) :
    CompileError :=
  .inText stage (message e.fault) e.file e.span

/-- Errors in the order in which they were found.  The first one decides the outcome. -/
structure Diagnostics where
  errors : List CompileError := []
deriving DecidableEq

namespace Diagnostics

/-- One more error. -/
def push (d : Diagnostics) (e : CompileError) : Diagnostics := ⟨d.errors ++ [e]⟩

/-- The number of errors. -/
def size (d : Diagnostics) : Nat := d.errors.length

/-- Success if nothing was found, otherwise the first error. -/
def toExcept (d : Diagnostics) : Except CompileError Unit :=
  match d.errors with
  | [] => .ok ()
  | e :: _ => .error e

end Diagnostics

end Idyl
