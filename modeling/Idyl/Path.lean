/-!
# Paths

A path is a text whose components are separated by slashes.  Empty components and components
that are a single dot do not count, except for a dot at the start of a path.  The last component
that counts is the file name, unless it is a dot or two.

The functions here work on the text of a path from its end, and keep the part that they do not
change as it is written.

## Main definitions

* `Idyl.Path.join` — a path seen from a directory.
* `Idyl.Path.parent?`, `Idyl.Path.extension?` — parts of a path.
* `Idyl.Path.withExtension` — a path with another extension.
-/

set_option autoImplicit false

namespace Idyl.Path

/-- Whether a path does not depend on the directory it is seen from. -/
def isAbsolute (path : String) : Bool := path.toList.head? = some '/'

/-- A path seen from a directory.  An absolute path stays as it is. -/
def join (dir path : String) : String :=
  if isAbsolute path then path
  else if dir.isEmpty || dir.toList.getLast? = some '/' then dir ++ path
  else dir ++ "/" ++ path

/-- The reversed text of a path, from the end of its last component on. -/
def trimReversed : List Char → List Char
  | '/' :: cs => trimReversed cs
  | '.' :: '/' :: cs => trimReversed cs
  | cs => cs

/-- The last component of a path and what stands before it, both as reversed text. -/
def splitReversed (path : String) : List Char × List Char :=
  let cs := trimReversed path.toList.reverse
  (cs.takeWhile (· ≠ '/'), cs.dropWhile (· ≠ '/'))

/-- Whether a reversed component names a file: it is neither missing nor made of one dot or
two. -/
def isFileName (reversed : List Char) : Bool :=
  reversed ≠ [] && reversed ≠ ['.'] && reversed ≠ ['.', '.']

/-- A file name as its stem and its extension, both as reversed text.  The extension follows the
last dot; a dot at the start of the name does not count. -/
def splitExtension (reversed : List Char) : List Char × Option (List Char) :=
  match reversed.dropWhile (· ≠ '.') with
  | '.' :: c :: cs => (c :: cs, some (reversed.takeWhile (· ≠ '.')))
  | _ => (reversed, none)

/-- The extension of the file a path names. -/
def extension? (path : String) : Option String :=
  let (name, _) := splitReversed path
  if isFileName name then (splitExtension name).2.map fun e => String.ofList e.reverse else none

/-- A path cut by the length of its extension.  If nothing stands behind the file name, this
leaves the name up to its last dot. -/
def cutExtension (path : String) : String :=
  match extension? path with
  | some e => String.ofList (path.toList.take (path.length - e.length))
  | none => path

/-- A path whose file name has another extension, in place of its own if it has one.  The path
is cut first; if it names no file then, as `..` does, it is left so. -/
def withExtension (path ext : String) : String :=
  let cut := cutExtension path
  let (name, before) := splitReversed cut
  if isFileName name then
    String.ofList (before.reverse ++ (splitExtension name).1.reverse) ++ "." ++ ext
  else cut

/-- A path without its last component.  Neither the empty path nor the root has a parent. -/
def parent? (path : String) : Option String :=
  let (name, before) := splitReversed path
  if name = [] then none
  else
    let rest := trimReversed before
    if rest = [] && isAbsolute path then some "/" else some (String.ofList rest.reverse)

end Idyl.Path
