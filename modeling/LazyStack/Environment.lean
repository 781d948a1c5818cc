import LazyStack.Evaluate.Call
import LazyStack.Node

/-!
Environments: a domain and a global scope that code runs against. A new environment binds the built-ins
that make closures and promises and force them.
-/

namespace LazyStack

structure Environment where
  domain : DomainId
  globals : ScopeId
  deriving DecidableEq, Repr

def closureName : String := "closure"

def delayName : String := "delay"

namespace Environment

def fresh (domain : Option DomainId) : Run Environment := do
  let domain ← match domain with
    | some existing => pure existing
    | none => Run.newStandardDomain
  let globals ← Run.newScope none
  globals.bind closureName (.callable (.makeClosure domain))
  globals.bind delayName (.callable .delay)
  globals.bind "force" (.callable .force)
  globals.bind "ispromise" (.callable .isPromise)
  return ⟨domain, globals⟩

variable (environment : Environment)

def lambdaForm : Run LambdaForm := do
  return ⟨environment.domain, ← environment.domain.null, closureName⟩

/-- Runs code on a fresh top frame and returns the final stack, the bottom first. -/
def execute (code : List Step) : Run (List Value) := do
  let frame ← Run.newTopFrame environment.globals
  Run.record (.executing code.length)
  runCode frame code
  return (← get).stackValues frame.stack

def evaluate (node : Node) : Run (List Value) := do
  environment.execute (← node.lower)

end Environment

end LazyStack
