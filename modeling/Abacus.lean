import Abacus.Main
import Abacus.Proofs.Syntax.Reading
import Abacus.Proofs.Syntax.Soundness
import Abacus.Proofs.Syntax.Completeness
import Abacus.Proofs.Eval.Lines
import Abacus.Proofs.Session.Joining
import Abacus.Proofs.Number.Bits
import Abacus.Proofs.Number.ReadBack
import Abacus.Proofs.Token.RoundTrip
import Abacus.Proofs.Token.LongestMatch
import Abacus.Proofs.Syntax.Names
import Abacus.Proofs.Eval.Scoping
import Abacus.Proofs.Eval.Renaming
import Abacus.Proofs.Syntax.LookAhead
import Abacus.Proofs.Syntax.EarliestError
import Abacus.Proofs.Eval.Visibility
import Abacus.Proofs.Eval.Depth
import Abacus.Proofs.Eval.StackCode
import Abacus.Proofs.Number.Literals
import Abacus.Proofs.Token.Relexing
import Abacus.Proofs.Session.Lines
import Abacus.Proofs.Eval.Globals
import Abacus.Proofs.Session.History
import Abacus.Proofs.Console.Conversation
import Abacus.Proofs.Token.Faults
import Abacus.Proofs.Eval.Footprint
import Abacus.Proofs.Number.Printing
import Abacus.Proofs.Session.Printing
import Abacus.Proofs.Eval.OwnScope
import Abacus.Proofs.Eval.Commuting
import Abacus.Proofs.Syntax.NestingLimit
import Abacus.Proofs.Syntax.EndOfInput
import Abacus.Proofs.Syntax.Reach
import Abacus.Proofs.Syntax.Blame
import Abacus.Proofs.Eval.Parentheses
import Abacus.Proofs.Context.Frames
import Abacus.Proofs.Context.History
import Abacus.Proofs.Syntax.Moves
import Abacus.Proofs.Syntax.Progress
import Abacus.Proofs.Text.Wrapping
import Abacus.Proofs.Text.Wrapping
