import Idyl.CompileError
import Idyl.Report.Excerpt

/-!
# Reporting errors

A source map holds the texts of all files read so far, so that an error can be shown in the text
it lies in.  Of two files of one name the later one counts.

## Main definitions

* `Idyl.SourceFile`, `Idyl.SourceMap` — files and their texts.
* `Idyl.SourceMap.register`, `Idyl.SourceMap.find?` — adding a file, looking one up.
* `Idyl.SourceMap.render` — an error as it is shown to the user.

## Main results

* `Idyl.SourceMap.find?_register` — which file is found after one was added.
-/

set_option autoImplicit false

namespace Idyl

/-- A file by its name and text. -/
structure SourceFile where
  name : String
  text : String
deriving DecidableEq

/-- The files read so far, in order. -/
structure SourceMap where
  files : List SourceFile := []
deriving DecidableEq

namespace SourceMap

/-- The number of files, which is also the number that the next one gets. -/
def size (m : SourceMap) : Nat := m.files.length

/-- One more file. -/
def register (m : SourceMap) (f : SourceFile) : SourceMap := ⟨m.files ++ [f]⟩

/-- Several more files. -/
def registerAll (m : SourceMap) (fs : List SourceFile) : SourceMap := ⟨m.files ++ fs⟩

/-- The latest file of a name. -/
def find? (m : SourceMap) (name : String) : Option SourceFile :=
  m.files.reverse.find? (·.name = name)

/-- A file is found under its name, in front of earlier ones. -/
@[simp] theorem find?_register (m : SourceMap) (f : SourceFile) (name : String) :
    (m.register f).find? name = if f.name = name then some f else m.find? name := by
  by_cases h : f.name = name <;> simp [find?, register, h]

/-- An error as it is shown to the user: an excerpt of the text at fault, or without a text just
what went wrong. -/
def render (m : SourceMap) (e : CompileError) : String :=
  let bare := "error: " ++ e.shown ++ "\n\n"
  match e with
  | .inText stage message file span =>
    match m.find? file with
    | some f => Excerpt.render ⟨stage.title, f.name, f.text, span.start, span.stop, message⟩
    | none => bare
  | _ => bare

end SourceMap

end Idyl
