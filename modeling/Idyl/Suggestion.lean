import Idyl.EditDistance
import Idyl.Literal

/-!
# Suggestions for misspelled type names

A word that stands where a type is expected is compared with the names of all types.  If it is
at most two edits away from one of them, that type is suggested.

## Main definitions

* `Idyl.foldCase` — a word without the difference between upper and lower case.
* `Idyl.closestType?` — the type whose name is nearest to a word.
-/

set_option autoImplicit false

namespace Idyl

/-- The lower-case form of a character, as far as it holds a letter that type names are written
with.  Outside ASCII two characters have a lower-case form with an ASCII letter in it: the
dotted capital I, which becomes `i` and a combining dot, and the kelvin sign.  Every other
character stays apart from all letters of type names in either case, so it is kept. -/
def lowerForm (c : Char) : List Char :=
  if c = '\u0130' then ['i', '\u0307']
  else if c = '\u212a' then ['k']
  else [c.toLower]

/-- A word without the difference between upper and lower case. -/
def foldCase (word : String) : String := String.ofList (word.toList.flatMap lowerForm)

/-- A suggestion is at fewer edits than this from the word. -/
def suggestionLimit : Nat := 3

/-- The nearer of two candidates, each a type with its distance; the first if both are equally
near. -/
def nearer (best : Option (Ty × Nat)) (candidate : Ty × Nat) : Option (Ty × Nat) :=
  match best with
  | none => if candidate.2 < suggestionLimit then some candidate else none
  | some b => if candidate.2 < b.2 then some candidate else some b

/-- The type whose name is nearest to the word, if it is near enough to be meant.  Of two
equally near ones it is the one that `Ty.all` lists first. -/
def closestType? (word : String) : Option Ty :=
  let candidates := Ty.all.map fun t => (t, editDistance (foldCase word) t.name)
  (candidates.foldl nearer none).map (·.1)

end Idyl
