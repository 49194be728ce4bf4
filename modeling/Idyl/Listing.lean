import Idyl.Listing.Tree
import Idyl.Token

/-!
# Listings

On request the compiler lists what it has read of a file: its tokens, one per line, or the
outline of its tree.

## Main definitions

* `Idyl.tokenListing`, `Idyl.programListing`, `Idyl.libraryListing`.
-/

set_option autoImplicit false

namespace Idyl

/-- A text moved to the right end of a column of a table. -/
def alignRight (width : Nat) (text : String) : String :=
  String.ofList (List.replicate (width - text.length) ' ') ++ text

/-- A text at the left end of a column of a table. -/
def alignLeft (width : Nat) (text : String) : String :=
  text ++ String.ofList (List.replicate (width - text.length) ' ')

/-- A line of a listing of tokens: the position, what the token is, and its text. -/
def tokenRow (t : Token) : String :=
  alignRight 4 (toString t.span.line) ++ ":" ++ alignLeft 3 (toString t.span.column) ++ " " ++
    alignLeft 24 t.kind.shown ++ " " ++ Quoted.text t.lexeme ++ "\n"

/-- A listing between its title and its end. -/
def framed (title kind body : String) : String :=
  s!"=== {title} ===\n" ++ body ++ s!"=== End {kind} ===\n\n"

/-- The tokens of a file. -/
def tokenListing (file : String) (tokens : List Token) : String :=
  framed s!"Tokens: {file}" "Tokens" (String.join (tokens.map tokenRow))

/-- The tree of a program. -/
def programListing (file : String) (p : Program) : String :=
  framed s!"AST: {file}" "AST" p.outline.render

/-- The trees of the functions of a library. -/
def libraryListing (file : String) (fs : List Function) : String :=
  framed s!"Library AST: {file}" "AST" (Outline.list (fs.map Function.outline)).render

end Idyl
