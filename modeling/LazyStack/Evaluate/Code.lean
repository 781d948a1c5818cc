import LazyStack.Cell
import LazyStack.Scope
import LazyStack.Stack

/-!
Running compiled code, given a way to call, and host programs, given a machine. Steps run in order on
one frame, and the first failure ends the run. A name bound to a bare callable is called when it is got;
a name bound to a value pushes it, even if the value holds a callable.
-/

namespace LazyStack

/-- A way to call a callable on a frame with the counts that the call site asks for. -/
abbrev Invoke := Callable → Frame → Option Int → Option Int → Run Unit

/-- What a body may go on with: calls of other callables and runs of code on a frame. -/
structure Machine where
  call : Invoke
  run : Frame → List Step → Run Unit

def Binding.callee (name : String) : Binding → Run Callable
  | .callable target => return target
  | .value bound =>
      match bound.tag, bound.payload with
      | .callable, .callable target => return target
      | _, _ => do throw (.notCallable name (← bound.typeName))

def Step.execute (invoke : Invoke) (frame : Frame) : Step → Run Unit
  | .push value => frame.stack.push value
  | .get name => do
      match ← frame.scope.lookup name with
      | .callable target => invoke target frame (some 0) (some 1)
      | .value value => frame.stack.push value
  | .call name args returns => do
      let binding ← frame.scope.lookup name
      let target ← binding.callee name
      invoke target frame args returns
  | .note _ => return ()

def executeSteps (invoke : Invoke) (frame : Frame) : List Step → Run Unit
  | [] => return ()
  | step :: rest => do
      step.execute invoke frame
      executeSteps invoke frame rest

def Machine.ofCalls (invoke : Invoke) : Machine :=
  ⟨invoke, executeSteps invoke⟩

def Action.perform (machine : Machine) : (action : Action) → Run action.Reply
  | .pop stack => stack.pop
  | .popMany stack size => stack.popMany size
  | .push stack value => stack.push value
  | .bind scope name binding => scope.bind name binding
  | .rebind scope name binding => scope.rebind name binding
  | .call target frame args returns => machine.call target frame args returns
  | .run code frame => machine.run frame code
  | .newScope parent => Run.newScope parent
  | .newStack => Run.newStack
  | .newPromise scope body => Run.newPromise scope body
  | .create domain tag payload => domain.create tag payload
  | .nullOf domain => domain.null
  | .expect value tag description => value.expect tag description
  | .count host => Run.count host
  | .keep host frame => Run.keep host frame
  | .kept host => do return ((← get).memory host).frames
  | .valueText value => do Run.written ((← get).valueText value)
  | .scopeText scope => do Run.written ((← get).scopeText scope)

def Program.run {α : Type} (machine : Machine) : Program α → Run α
  | .done result => return result
  | .fail failure => throw failure
  | .act action next => do
      let reply ← action.perform machine
      (next reply).run machine
  | .attempt action next => do
      let outcome ← Run.outcome (action.perform machine)
      (next outcome).run machine

end LazyStack
