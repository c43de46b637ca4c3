import ContextParser.Description.Grammar
import ContextParser.Main
import ContextParser.Proofs.ConsumedText
import ContextParser.Proofs.Contexts.Accumulation
import ContextParser.Proofs.Contexts.Frame
import ContextParser.Proofs.Contexts.Irrelevance
import ContextParser.Proofs.FailureKinds
import ContextParser.Proofs.Keywords
import ContextParser.Proofs.LengthChecks
import ContextParser.Proofs.Literals
import ContextParser.Proofs.LookingAhead
import ContextParser.Proofs.OrderedChoice
import ContextParser.Proofs.Parentheses
import ContextParser.Proofs.Peg.Correctness
import ContextParser.Proofs.Positions
import ContextParser.Proofs.Recovery
import ContextParser.Proofs.Repetition.Bounds
import ContextParser.Proofs.Repetition.Idempotence
import ContextParser.Proofs.Repetition.Separators
import ContextParser.Proofs.Scanning
import ContextParser.Proofs.Session.Errors
import ContextParser.Proofs.Session.Modes
import ContextParser.Proofs.Session.Tables
import ContextParser.Proofs.StateViews
import ContextParser.Proofs.Termination
import ContextParser.Proofs.TokenLists
import ContextParser.Proofs.WholeTexts
