import LazyStack.Session
import LazyStack.Proofs.Interpreter
import LazyStack.Proofs.Memoization
import LazyStack.Proofs.StackHeight
import LazyStack.Proofs.Underflow
import LazyStack.Proofs.Conduct
import LazyStack.Proofs.Effect
import LazyStack.Proofs.Order
import LazyStack.Proofs.Budget
import LazyStack.Proofs.RunFailure
import LazyStack.Proofs.Confinement
import LazyStack.Proofs.Lexical
import LazyStack.Proofs.Reentry
import LazyStack.Proofs.StepCount
import LazyStack.Proofs.Termination
import LazyStack.Proofs.Cutoff
import LazyStack.Proofs.OwnStack
import LazyStack.Proofs.Retry
import LazyStack.Proofs.Alike
import LazyStack.Proofs.Correspondence
import LazyStack.Proofs.Comparison
import LazyStack.Proofs.Interference
import LazyStack.Proofs.ByName
import LazyStack.Proofs.ByNeed
import LazyStack.Proofs.Underlay
import LazyStack.Proofs.Depth
import LazyStack.Proofs.ParameterList
import LazyStack.Proofs.Capture
import LazyStack.Proofs.Tagging
import LazyStack.Proofs.Isolation
import LazyStack.Proofs.Simulation
import LazyStack.Proofs.Arguments
import LazyStack.Proofs.Account
import LazyStack.Proofs.Classes
import LazyStack.Proofs.Grammar
import LazyStack.Proofs.Acceptance
import LazyStack.Proofs.Rejection
import LazyStack.Proofs.CellList
import LazyStack.Proofs.ScopeTree
import LazyStack.Proofs.Quotation
import LazyStack.Proofs.Listing
import LazyStack.Proofs.Legibility
import LazyStack.Proofs.Display
import LazyStack.Proofs.Numeral
import LazyStack.Proofs.Block
import LazyStack.Proofs.GroundedState
import LazyStack.Proofs.GroundedCall
import LazyStack.Proofs.GroundedOperation
import LazyStack.Proofs.Ancestry
