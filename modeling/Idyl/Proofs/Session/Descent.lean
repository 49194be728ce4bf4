import Mathlib
import Idyl.Proofs.Session.Calls

/-!
# A cursor among tokens

The rules of the grammar read from what is left of a list of tokens, and are told how many levels
of nesting are left.  The same reading can be done by a cursor, which knows nothing but the tokens,
its position among them and how deep it is in nested phrases.  It looks at tokens by their index,
and goes down into phrases without knowing how many tokens or levels are left.

A descent gives nothing where the cursor looks at an index that is not there, leaves a level that
it has not entered, goes through more rounds than there are tokens, or goes down into more phrases
than there are levels.  The cursor leaves a trail: all places it has been at.

## Main definitions

* `Idyl.Cursor`, `Idyl.Descent` — cursors, and what moves them.
* `Idyl.Descent.many`, `Idyl.Descent.iterate`, `Idyl.Descent.nested` — repetition and nesting.
* `Idyl.Descent.expression`, `Idyl.Descent.statement` — expressions and statements.
* `Idyl.Descent.program`, `Idyl.Descent.library` — whole files.
* `Idyl.Cursor.run` — calls, one after the other.

That descents give what the rules of the grammar give, and so never nothing, is shown in
`Idyl.Proofs.Session.Follows` and the modules that build on it.
-/

set_option autoImplicit false

namespace Idyl

/-- A position among tokens, and a depth in nested phrases. -/
structure Place where
  pos : Nat
  depth : Nat
deriving DecidableEq

/-- A cursor among tokens, with the places it has been at before, the last one first. -/
structure Cursor extends Place where
  tokens : List Token
  trail : List Place

/-- What moves a cursor and gives a phrase or an error, or gives nothing. -/
abbrev Descent : Type → Type := ExceptT SyntaxError (StateT Cursor Option)

namespace Cursor

/-- A cursor at the first of some tokens. -/
def ofTokens (tokens : List Token) : Cursor :=
  { pos := 0, depth := 0, tokens := Session.complete tokens, trail := [] }

/-- Moves a cursor to another place. -/
def moveTo (c : Cursor) (pos depth : Nat) : Cursor :=
  { c with pos := pos, depth := depth, trail := c.toPlace :: c.trail }

/-- All places that a cursor has been at, the last one first. -/
def places (c : Cursor) : List Place := c.toPlace :: c.trail

end Cursor

namespace Descent

variable {α : Type}

/-! ## One token -/

/-- The token at the cursor. -/
def current : Descent Token := fun c => c.tokens[c.pos]?.map fun t => (.ok t, c)

/-- What the token at the cursor is. -/
def kind : Descent TokenKind := do
  let t ← current
  pure t.kind

/-- What the token behind the one at the cursor is; the last token is followed by itself. -/
def nextKind : Descent TokenKind := fun c =>
  c.tokens[min (c.pos + 1) (c.tokens.length - 1)]?.map fun t => (.ok t.kind, c)

/-- Takes the token at the cursor.  The cursor stays where a file ends. -/
def advance : Descent Token := do
  let t ← current
  fun c => some (.ok t, if t.kind = .endOfFile then c else c.moveTo (c.pos + 1) c.depth)

/-- An error at a token. -/
def failAt (t : Token) (f : SyntaxFault) : Descent α := throw ⟨f, t.file, t.span⟩

/-- An error at the token at the cursor. -/
def fault (f : SyntaxFault) : Descent α := do
  let t ← current
  failAt t f

/-- The error that something else was expected. -/
def expected (what : String) : Descent α := do
  let t ← current
  failAt t (.expected what t.kind)

/-- Takes a token of the given kind. -/
def token (k : TokenKind) (place : String) : Descent Token := do
  if (← kind) = k then advance else expected (Rule.wanted k place)

/-- Takes a mark. -/
def mark (p : Punct) (place : String) : Descent Token := token (.punct p) place

/-- Takes a reserved word. -/
def word (k : Keyword) (place : String) : Descent Token := token (.keyword k) place

/-- The name that a token is. -/
def nameOf? : TokenKind → Option String
  | .identifier n => some n
  | _ => none

/-- Takes a name. -/
def name (what : String) : Descent (String × Span) := do
  match nameOf? (← kind) with
  | some n =>
    let t ← advance
    pure (n, t.span)
  | none => expected what

/-- Takes the name of a type. -/
def typeName : Descent (Ty × Token) := do
  let t ← current
  match tyOfKind? t.kind with
  | some type =>
    let _ ← advance
    pure (type, t)
  | none =>
    match nameOf? t.kind with
    | some n => failAt t (.unknownType n)
    | none => expected "type name"

/-! ## Repetition -/

/-- Gives nothing. -/
def nothing : Descent α := fun _ => none

/-- Descends into phrases while `test` tells so, in at most the given number of rounds. -/
def manyWithin (test : Descent Bool) (x : Descent α) : Nat → Descent (List α)
  | 0 => nothing
  | rounds + 1 => do
    if ← test then
      let a ← x
      let as ← manyWithin test x rounds
      pure (a :: as)
    else pure []

/-- Descends into phrases while `test` tells so, in no more rounds than there are tokens, and a last
one. -/
def many (test : Descent Bool) (x : Descent α) : Descent (List α) := fun c =>
  manyWithin test x (c.tokens.length + 1) c

/-- Goes on from a phrase to larger ones while `turn` gives one, in at most the given number of
rounds. -/
def iterateWithin (turn : α → Descent (Option α)) : Nat → α → Descent α
  | 0, _ => nothing
  | rounds + 1, a => do
    match ← turn a with
    | none => pure a
    | some b => iterateWithin turn rounds b

/-- Goes on from a phrase to larger ones while `turn` gives one, in no more rounds than there are
tokens, and a last one. -/
def iterate (turn : α → Descent (Option α)) (a : α) : Descent α := fun c =>
  iterateWithin turn (c.tokens.length + 1) a c

/-! ## Levels -/

/-- Goes one level deeper, unless this is too deep. -/
def enter (what : Nesting) : Descent Unit := fun c =>
  if maxDepth ≤ c.depth then fault (.tooDeep what) c
  else some (.ok (), c.moveTo c.pos (c.depth + 1))

/-- Goes back by a level, with whatever was found there. -/
def leave : Except SyntaxError α × Cursor → Option (Except SyntaxError α × Cursor)
  | (result, c) => if c.depth = 0 then none else some (result, c.moveTo c.pos (c.depth - 1))

/-- Descends one level deeper. -/
def nested (what : Nesting) (x : Descent α) : Descent α := do
  enter what
  fun c => x c >>= leave

/-! ## Expressions -/

/-- The literal that a token is, or what is wrong with it. -/
def literalOf? : TokenKind → Option (Except SyntaxFault Literal)
  | .integer text =>
    some ((readInt? text).elim (.error (.integerTooLarge text)) fun n => .ok (.int n))
  | .float text =>
    some ((Binary64.ofText? text).elim (.error (.invalidFloat text)) fun x => .ok (.float x))
  | .string value => some (.ok (.string value))
  | .char value => some (.ok (.char value))
  | .keyword .true => some (.ok (.bool true))
  | .keyword .false => some (.ok (.bool false))
  | _ => none

/-- Whether another argument follows. -/
def commaAhead : Descent Bool := do
  let k ← kind
  pure (k = .punct .comma)

/-- An operator of one level above the given one, and what stands to its right. -/
def join (level : Nat) (right : Descent Expr) (left : Expr) : Descent (Option Expr) := do
  let k ← kind
  match binaryOp? k with
  | none => pure none
  | some op =>
    if op.level = level + 1 then
      let _ ← token k ""
      let e ← right
      pure (some (Expr.join op left e))
    else pure none

section Operands

variable (operand : Descent Expr)

/-- Operands joined by operators of at most the given level. -/
def binary : Nat → Descent Expr
  | 0 => operand
  | level + 1 => do
    let left ← binary level
    iterate (join level (binary level)) left

/-- Assignments, and expressions without one.  Assignments group to the right, and stand in each
other in at most the given number of rounds. -/
def assignmentWithin : Nat → Descent Expr
  | 0 => nothing
  | rounds + 1 => do
    let target ← binary operand BinaryOp.loosest
    if (← kind) = .punct .assign then
      let sign ← mark .assign ""
      match target with
      | .var name span =>
        let value ← assignmentWithin rounds
        pure (.assign name value (span.merge value.span))
      | _ => failAt sign (.notAssignable target.form)
    else pure target

/-- Assignments, and expressions without one. -/
def assignment : Descent Expr := fun c => assignmentWithin operand (c.tokens.length + 1) c

/-- The arguments of a call. -/
def arguments : Descent (List Expr) := do
  if (← kind) = .punct .rparen then pure []
  else
    let first ← assignment operand
    let others ← many commaAhead do
      let _ ← mark .comma ""
      assignment operand
    pure (first :: others)

/-- A call or a member access behind an expression. -/
def suffix (e : Expr) : Descent (Option Expr) := do
  let k ← kind
  if k = .punct .lparen then
    let _ ← mark .lparen ""
    let args ← arguments operand
    let close ← mark .rparen "after arguments"
    pure (some (.call e args (e.span.merge close.span)))
  else if k = .punct .dot then
    let _ ← mark .dot ""
    let (n, span) ← name "property name after '.'"
    pure (some (.member e n (e.span.merge span)))
  else pure none

/-- What stands behind an opening parenthesis. -/
def grouped : Descent Expr := do
  let e ← assignment operand
  let _ ← mark .rparen "after expression"
  pure e

/-- Literals, variables, and expressions in parentheses, which are one level deeper. -/
def primary : Descent Expr := do
  let t ← current
  match literalOf? t.kind with
  | some (.ok v) =>
    let _ ← advance
    pure (.lit v t.span)
  | some (.error f) => failAt t f
  | none =>
    match nameOf? t.kind with
    | some n =>
      let _ ← advance
      pure (.var n t.span)
    | none =>
      if t.kind = .punct .lparen then
        let _ ← advance
        nested .expression (grouped operand)
      else expected "expression"

/-- Operands with or without an operator in front. -/
def prefixed : Descent Expr := do
  let k ← kind
  if k = .keyword .not then
    let sign ← word .not ""
    let e ← operand
    pure (.unary .not e (sign.span.merge e.span))
  else if k = .punct .minus then
    let sign ← mark .minus ""
    let e ← operand
    pure (Expr.join .sub (.lit (.int 0) sign.span) e)
  else
    let e ← primary operand
    iterate (suffix operand) e

end Operands

/-- Operands, one level deeper, with at most the given number of operands in each other. -/
def operand : Nat → Descent Expr
  | 0 => nothing
  | height + 1 => nested .expression (prefixed (operand height))

/-- Expressions. -/
def expression : Descent Expr := assignment (operand (maxDepth + 1))

/-! ## Statements -/

/-- A condition in parentheses. -/
def condition (place : String) : Descent Expr := do
  let _ ← mark .lparen place
  let e ← expression
  let _ ← mark .rparen "after condition"
  pure e

/-- The declaration of a variable. -/
def declaration : Descent Stmt := do
  let (type, start) ← typeName
  let (n, span) ← name "variable name"
  match type.default? with
  | none => failAt start (.voidVariable n)
  | some value =>
    let init ←
      if (← kind) = .punct .assign then do
        let _ ← mark .assign ""
        expression
      else pure (.lit value span)
    let semi ← mark .semi "after variable declaration"
    pure (.declare type n init (start.span.merge semi.span))

/-- A return statement. -/
def returning : Descent Stmt := do
  let start ← word .return_ ""
  let value ← if (← kind) = .punct .semi then pure none else some <$> expression
  let semi ← mark .semi "after return"
  pure (.return_ value (start.span.merge semi.span))

/-- An expression that is evaluated for its effect. -/
def evaluation : Descent Stmt := do
  let e ← expression
  let semi ← mark .semi "after expression"
  pure (.eval e (e.span.merge semi.span))

/-- The name at the cursor, if it looks like a misspelled type: a name or a semicolon follows. -/
def misspelled : Descent (Option String) := do
  match nameOf? (← kind) with
  | none => pure none
  | some n =>
    let k ← nextKind
    pure (if k = .punct .semi ∨ (nameOf? k).isSome then some n else none)

/-- Whether a block goes on. -/
def inBlock : Descent Bool := do
  let k ← kind
  pure (k ≠ .punct .rbrace && k ≠ .endOfFile)

section Statements

variable (statement : Descent Stmt)

/-- A declaration or a statement. -/
def item : Descent Stmt := do
  if (← kind).isTypeName then declaration
  else
    match ← misspelled with
    | some n => fault (.unknownType n)
    | none => statement

/-- Blocks. -/
def block : Descent Block := do
  let opening ← mark .lbrace "to open a block"
  let body ← many inBlock (item statement)
  let closing ← mark .rbrace "to close the block"
  pure ⟨body, opening.span.merge closing.span⟩

/-- Conditional statements. -/
def ifStatement : Descent Stmt := do
  let start ← word .if_ ""
  let e ← condition "after 'if'"
  let thenBranch ← statement
  let span := start.span.merge thenBranch.span
  if (← kind) = .keyword .else_ then
    let _ ← word .else_ ""
    let elseBranch ← statement
    pure (.ifElse e thenBranch elseBranch (span.merge elseBranch.span))
  else pure (.ifThen e thenBranch span)

/-- Loops. -/
def whileStatement : Descent Stmt := do
  let start ← word .while_ ""
  let e ← condition "after 'while'"
  let body ← statement
  pure (.while_ e body (start.span.merge body.span))

/-- The forms of statements. -/
def statementForm : Descent Stmt := do
  let k ← kind
  if k = .keyword .if_ then ifStatement statement
  else if k = .keyword .while_ then whileStatement statement
  else if k = .keyword .return_ then returning
  else if k = .punct .lbrace then
    let b ← block statement
    pure (.block b.body b.span)
  else evaluation

end Statements

/-- Statements, one level deeper, with at most the given number of statements in each other. -/
def statement : Nat → Descent Stmt
  | 0 => nothing
  | height + 1 => nested .statement (statementForm (statement height))

/-! ## Files -/

/-- An import. -/
def importLine : Descent Import := do
  let start ← word .use ""
  let (n, _) ← name "module name after 'use'"
  let semi ← mark .semi "after module name"
  pure ⟨n, start.span.merge semi.span⟩

/-- The body of a function. -/
def body : Descent Block := block (statement (maxDepth + 1))

/-- The parameter of a function, if it has one. -/
def params (function : String) : Descent (List Param) := do
  if (← kind) = .punct .rparen then pure []
  else
    let (type, start) ← typeName
    let (n, span) ← name "parameter name"
    if (← kind) = .punct .comma then fault (.secondParameter function)
    else pure [⟨type, n, start.span.merge span⟩]

/-- A function. -/
def function : Descent Function := do
  let (returns, start) ← typeName
  let _ ← word .function "after return type"
  let (n, _) ← name "function name"
  let _ ← mark .lparen "after function name"
  let ps ← params n
  let _ ← mark .rparen "after parameters"
  let b ← body
  pure ⟨n, returns, ps, b, start.span.merge b.span⟩

/-- The function a program starts with. -/
def mainFunction : Descent Function := do
  let start ← word .main ""
  let _ ← mark .lparen "after 'main'"
  let _ ← mark .rparen "after '('"
  let b ← body
  pure ⟨"main", .void, [], b, start.span.merge b.span⟩

/-- Whether a function is at the cursor. -/
def functionAhead : Descent Bool := do
  let k ← kind
  if k.startsFunction then pure true
  else
    match nameOf? k with
    | none => pure false
    | some _ =>
      let k' ← nextKind
      pure (k' = .keyword .function)

/-- Whether an import is at the cursor. -/
def importAhead : Descent Bool := do
  let k ← kind
  pure (k = .keyword .use)

/-- A program, which belongs to the given file. -/
def program (file : String) : Descent Program := do
  let is ← many importAhead importLine
  let fs ← many functionAhead function
  if (← kind) = .keyword .main then
    let main ← mainFunction
    if (← kind) = .endOfFile then pure ⟨is, fs, main, file⟩
    else expected "end of file after main()"
  else expected "'main' function"

/-- What may stand in a library. -/
def libraryItem : Descent (Option Function) := do
  if ← importAhead then
    let _ ← importLine
    pure none
  else if ← functionAhead then some <$> function
  else
    let k ← kind
    fault (.notInLibrary k)

/-- Whether the file goes on. -/
def inFile : Descent Bool := do
  let k ← kind
  pure (k ≠ .endOfFile)

/-- The functions of a library. -/
def library : Descent (List Function) := do
  let items ← many inFile libraryItem
  pure (items.filterMap id)

end Descent

/-! ## Calls -/

namespace Cursor

open Session (Call Answer)

/-- Makes a call. -/
def call (c : Cursor) : Call → Option (Answer × Cursor)
  | .program => (Descent.program (Session.fileOf c.tokens) c).map fun x => (.program x.1, x.2)
  | .library => (Descent.library c).map fun x => (.library x.1, x.2)

/-- Makes calls, one after the other. -/
def run (c : Cursor) : List Call → Option (List Answer × Cursor)
  | [] => some ([], c)
  | x :: xs => do
    let (a, c') ← c.call x
    let (as, c'') ← c'.run xs
    pure (a :: as, c'')

end Cursor

end Idyl
