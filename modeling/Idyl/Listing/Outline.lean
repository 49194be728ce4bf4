/-!
# Outlines

An outline shows nested data line by line.  An item that holds others opens on a line of its
own, lists them one per line, each indented and followed by a comma, and closes on a line of its
own.

## Main definitions

* `Idyl.Outline` — an outline.
* `Idyl.Outline.record`, `Idyl.Outline.wrap`, `Idyl.Outline.list` — the forms that are used.
* `Idyl.Outline.render` — its text.
-/

set_option autoImplicit false

namespace Idyl

/-- An outline: a text without parts, a value with a label, or items between an opening and a
closing text. -/
inductive Outline where
  | atom (text : String)
  | field (label : String) (value : Outline)
  | node (opening : String) (items : List Outline) (closing : String)

namespace Outline

/-- A record by its name and its labelled fields. -/
def record (name : String) (fields : List Outline) : Outline :=
  node (name ++ " \x7b") fields "\x7d"

/-- A value inside a named form. -/
def wrap (name : String) (value : Outline) : Outline := node (name ++ "(") [value] ")"

/-- A list of values. -/
def list (items : List Outline) : Outline :=
  if items.isEmpty then atom "[]" else node "[" items "]"

/-- Each level is indented by this much. -/
def indent : String := "    "

/-- Lines with a text in front of the first. -/
def prependFirst (text : String) : List String → List String
  | [] => [text]
  | l :: ls => (text ++ l) :: ls

/-- The lines of an item: indented, and with a comma at the end of the last. -/
def itemLines : List String → List String
  | [] => []
  | [l] => [indent ++ l ++ ","]
  | l :: ls => (indent ++ l) :: itemLines ls

mutual

/-- The lines of an outline. -/
def lines : Outline → List String
  | atom text => [text]
  | field label value => prependFirst (label ++ ": ") value.lines
  | node opening items closing => opening :: (linesOfItems items ++ [closing])

/-- The lines of items, one after the other. -/
def linesOfItems : List Outline → List String
  | [] => []
  | o :: os => itemLines o.lines ++ linesOfItems os

end

/-- The text of an outline, each line ended. -/
def render (o : Outline) : String := String.join (o.lines.map (· ++ "\n"))

end Outline

end Idyl
