import Idyl.Main
import Idyl.Workspace
import Idyl.Proofs.Bare
import Idyl.Proofs.Grammar.Reading
import Idyl.Proofs.Grammar.Phrases
import Idyl.Proofs.Grammar.Sound
import Idyl.Proofs.Grammar.Complete
import Idyl.Proofs.Grammar.Sentence
import Idyl.Proofs.Typing.Accepts
import Idyl.Proofs.Typing.Declared
import Idyl.Proofs.Token.Spelling
import Idyl.Proofs.Token.Lexeme
import Idyl.Proofs.Token.Steps
import Idyl.Proofs.Token.Tiling
import Idyl.Proofs.Decimal.Exact
import Idyl.Proofs.Printing.Printer
import Idyl.Proofs.Printing.Derives
import Idyl.Proofs.Printing.Reparse
import Idyl.Proofs.Compile.HandOver
import Idyl.Proofs.Pairing.Trees
import Idyl.Proofs.Pairing.Reading
import Idyl.Proofs.Pairing.Checking
import Idyl.Proofs.Pairing.Layout
import Idyl.Proofs.Pairing.Placed
import Idyl.Proofs.Token.Places
import Idyl.Proofs.Compile.Origin
import Idyl.Proofs.Compile.Registered
import Idyl.Proofs.Compile.History
import Idyl.Proofs.Grammar.Lookahead
import Idyl.Proofs.Session.Calls
import Idyl.Proofs.Session.Agreement
import Idyl.Proofs.Nodes
import Idyl.Proofs.Grammar.Shape
import Idyl.Proofs.Session.Descent
import Idyl.Proofs.Session.Follows
import Idyl.Proofs.Session.Simulation
import Idyl.Proofs.Session.Invariant
import Idyl.Proofs.Pairing.Renamed
import Idyl.Proofs.Library.Directory
import Idyl.Proofs.Compile.Simulated
import Idyl.Proofs.Recursion.Plan
import Idyl.Proofs.Recursion.Solution
import Idyl.Proofs.Recursion.Termination
import Idyl.Proofs.Grammar.Depth
import Idyl.Proofs.Recursion.Induction
import Idyl.Proofs.Grammar.Spans
import Idyl.Proofs.Recursion.Appended
import Idyl.Proofs.Grammar.Modes
import Idyl.Proofs.EditDistance
import Idyl.Proofs.Typing.Scoping
import Idyl.Proofs.Token.Longest
import Idyl.Proofs.Token.Lines
import Idyl.Proofs.Typing.Separate
import Idyl.Proofs.Typing.Renaming
import Idyl.Proofs.Typing.Minus
import Idyl.Proofs.Typing.Libraries
import Idyl.Proofs.LineIndex
import Idyl.Proofs.Session.AddedEnd
import Idyl.Proofs.Token.Strings
import Idyl.Proofs.Token.LineFeeds
