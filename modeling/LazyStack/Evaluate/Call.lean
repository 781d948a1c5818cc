import LazyStack.Evaluate.Code

/-!
Calls. A callable with a signature checks the counts asked for, then the operands present, and after its
body that exactly its own operands were exchanged for its results. Closures and pending promises run
one level deeper than their caller, on a fresh stack in a fresh scope, and have to leave one result; a
promise keeps its result and never runs again. Only these calls count against the limit on depth.
-/

namespace LazyStack

def requireCount (mismatch : Int → Int → Failure) (declared : Int) : Option Int → Run Unit
  | none => return ()
  | some requested =>
      if requested = declared then return () else throw (mismatch declared requested)

def checkCounts (kind : String) (signature : Signature) (args returns : Option Int) : Run Unit := do
  requireCount (.argumentCount kind) signature.args args
  requireCount (.resultCount kind) signature.returns returns

/-- Fails when a frame under this one would lie deeper than the limit. -/
def requireDepth (frame : Frame) : Run Unit := do
  let limit := (← get).callLimit
  if (limit : Int) < frame.depth + 1 then
    throw (.tooDeep limit)
  else
    return ()

def bindParameters (scope : ScopeId) : List String → List Value → Run Unit
  | name :: names, value :: values => do
      scope.bind name (.value value)
      bindParameters scope names values
  | _, _ => return ()

def soleResult (stack : StackId) (failure : Nat → Failure) : Run Value := do
  let count ← stack.size
  if count = 1 then
    stack.pop
  else
    throw (failure count)

/-- The frame that the body of a closure runs on, with the arguments bound in its scope. -/
def enterClosure (scope : ScopeId) (parameters : List String) (frame : Frame) : Run Frame := do
  requireDepth frame
  let values ← frame.stack.popMany parameters.length
  let inner ← Run.newLocalFrame (some scope) frame.depth
  bindParameters inner.scope parameters values
  return inner

def runClosure (machine : Machine) (scope : ScopeId) (body : List Step) (parameters : List String)
    (frame : Frame) : Run Unit := do
  let inner ← enterClosure scope parameters frame
  machine.run inner body
  let result ← soleResult inner.stack .closureResults
  frame.stack.push result

def enterPromise (scope : Option ScopeId) (frame : Frame) : Run Frame := do
  requireDepth frame
  Run.newLocalFrame scope frame.depth

/-- The value that the body of a promise computes. -/
def Promise.compute (machine : Machine) (frame : Frame) (promise : Promise) : Run Value := do
  let inner ← enterPromise promise.scope frame
  machine.run inner (promise.body.getD [])
  soleResult inner.stack .promiseResults

def runPromise (machine : Machine) (id : PromiseId) (frame : Frame) : Run Unit := do
  let promise := (← get).promise id
  match promise.value with
  | some value => frame.stack.push value
  | none =>
      let value ← promise.compute machine frame
      modify fun state => state.resolve id value
      Run.record (.promiseResolved id ((← get).valueText value))
      frame.stack.push value

def runMakeClosure (domain : DomainId) (frame : Frame) : Run Unit := do
  let code ← (← frame.stack.pop).expect .code "second argument of 'closure'"
  let names ← domain.parameterNames (← frame.stack.pop)
  Run.record (.closureCreated names)
  let closure := Callable.closure frame.scope code.steps names
  frame.stack.push (← domain.create .callable (.callable closure))

def runDelay (frame : Frame) : Run Unit := do
  let argument ← frame.stack.pop
  let code ← argument.expect .code "'code' argument"
  let promise ← Run.newPromise frame.scope code.steps
  frame.stack.push (← argument.domain.create .callable (.callable (.promise promise)))

def runForce (machine : Machine) (frame : Frame) : Run Unit := do
  let argument ← frame.stack.pop
  match ← argument.expect .callable "'force' argument" with
  | .callable target => machine.call target frame (some 0) (some 1)
  | _ => return ()

def Value.isPromise : Value → Bool
  | ⟨_, .callable, .callable (.promise _), _⟩ => true
  | _ => false

def runIsPromise (frame : Frame) : Run Unit := do
  let value ← frame.stack.pop
  frame.stack.push (← value.domain.create .bool (.bool value.isPromise))

def Callable.runBody (machine : Machine) (frame : Frame) (args returns : Option Int) :
    Callable → Run Unit
  | .closure scope body parameters => runClosure machine scope body parameters frame
  | .promise id => runPromise machine id frame
  | .makeClosure domain => runMakeClosure domain frame
  | .delay => runDelay frame
  | .force => runForce machine frame
  | .isPromise => runIsPromise frame
  | .host id _ => do ((← get).hostBody id frame args returns).run machine

def requireOperands (kind : String) (signature : Signature) (frame : Frame) : Run Nat := do
  let before ← frame.stack.size
  if (before : Int) < signature.args then
    throw (.missingArguments kind signature.args before)
  else
    return before

def requireContract (kind : String) (signature : Signature) (before : Nat) (frame : Frame) :
    Run Unit := do
  let expected := before - signature.args + signature.returns
  let after ← frame.stack.size
  if (after : Int) = expected then
    return ()
  else
    throw (.brokenContract kind expected after)

def Callable.callOnce (machine : Machine) : Invoke := fun target frame args returns => do
  match target.signature? with
  | none => target.runBody machine frame args returns
  | some signature =>
      checkCounts target.kind signature args returns
      let before ← requireOperands target.kind signature frame
      target.runBody machine frame args returns
      requireContract target.kind signature before frame

def Machine.stopped : Machine :=
  ⟨fun _ _ _ _ => throw .exhausted, fun _ _ => throw .exhausted⟩

def Callable.callWithin : Nat → Invoke
  | 0 => Callable.callOnce .stopped
  | budget + 1 => Callable.callOnce (.ofCalls (Callable.callWithin budget))

/-- How many calls that do not deepen the frame may nest in hosts. -/
def hostNesting : Nat := 1000

/-- The budget for calls under a frame. Forcing nests once at most before the depth grows. -/
def callBudget (limit : Nat) (depth : Int) : Nat :=
  hostNesting + 2 * (limit + 1 - depth).toNat

def Callable.call : Invoke := fun target frame args returns => do
  Callable.callWithin (callBudget (← get).callLimit frame.depth) target frame args returns

def runCode (frame : Frame) (code : List Step) : Run Unit := do
  executeSteps (Callable.callWithin (callBudget (← get).callLimit frame.depth)) frame code

end LazyStack
