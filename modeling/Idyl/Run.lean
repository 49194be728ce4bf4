import Idyl.CompileError
import Idyl.Report.SourceMap

/-!
# Runs

A stage of compilation gives a result or an error.  Besides, it may open files, whose texts are
kept for reports, and write notes: lines of a log, and listings of what it has read.  A run holds
all of it as a value.

## Main definitions

* `Idyl.LogLine`, `Idyl.Note` — what is written along the way.
* `Idyl.Run` — what a stage leaves behind.
* `Idyl.Run.followedBy` — a stage with a note at its end.

## Main results

* `Idyl.Run.result_bind` — the result of two stages, one after the other.
-/

set_option autoImplicit false

namespace Idyl

/-- How much a line of the log matters. -/
inductive LogLevel where
  | debug | info | warn
deriving DecidableEq

/-- The name of a level, as wide as the widest. -/
def LogLevel.shown : LogLevel → String
  | debug => "DEBUG"
  | info => "INFO "
  | warn => "WARN "

/-- A line of the log: how much it matters, which part of the compiler wrote it, and what it
says. -/
structure LogLine where
  level : LogLevel
  source : String
  message : String
deriving DecidableEq

/-- The columns by which a message of several lines is set in behind its first line. -/
def LogLine.indent : Nat := 4

/-- What a line of the log says, as it is written.  Where it has line feeds of its own, as names
of files may have, the next line is set in, so that only a new entry starts at the margin. -/
def LogLine.body (l : LogLine) : String :=
  String.ofList (l.message.toList.flatMap fun c =>
    if c = '\n' then c :: List.replicate indent ' ' else [c])

/-- A line of the log as it is written. -/
def LogLine.shown (l : LogLine) : String := s!"[{l.level.shown} {l.source}] {l.body}"

/-- What a stage writes along the way. -/
inductive Note where
  | log (line : LogLine)
  | listing (text : String)
deriving DecidableEq

/-- What a stage leaves behind: the files it opened and the notes it wrote, in order, and its
result. -/
structure Run (α : Type) where
  opened : List SourceFile
  notes : List Note
  result : Except CompileError α

namespace Run

variable {α β : Type}

/-- Stages are run one after the other; the first error ends them all. -/
instance : Monad Run where
  pure a := ⟨[], [], .ok a⟩
  bind x f :=
    match x.result with
    | .error e => ⟨x.opened, x.notes, .error e⟩
    | .ok a =>
      let y := f a
      ⟨x.opened ++ y.opened, x.notes ++ y.notes, y.result⟩

/-- The result of a stage that leaves nothing else behind. -/
def ofExcept (r : Except CompileError α) : Run α := ⟨[], [], r⟩

/-- Opens a file. -/
def opening (file : SourceFile) : Run Unit := ⟨[file], [], .ok ()⟩

/-- Writes a note. -/
def note (n : Note) : Run Unit := ⟨[], [n], .ok ()⟩

/-- Writes a line of the log that matters only for finding faults. -/
def debug (source message : String) : Run Unit := note (.log ⟨.debug, source, message⟩)

/-- Writes a listing if it is asked for. -/
def listIf (asked : Bool) (text : String) : Run Unit :=
  if asked then note (.listing text) else pure ()

/-- A stage that is followed by a line of the log, whether it succeeds or not. -/
def followedBy (x : Run α) (n : Note) : Run α := { x with notes := x.notes ++ [n] }

/-- A value is a success. -/
@[simp] theorem result_pure (a : α) : (pure a : Run α).result = .ok a := rfl

/-- The result of two runs, one after the other. -/
@[simp] theorem result_bind (x : Run α) (f : α → Run β) :
    (x >>= f).result = x.result >>= fun a => (f a).result := by
  cases h : x.result <;> simp [bind, h, Except.bind]

/-- A note does not change the result. -/
@[simp] theorem result_followedBy (x : Run α) (n : Note) :
    (x.followedBy n).result = x.result := rfl

end Run

end Idyl
