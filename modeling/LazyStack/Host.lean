import LazyStack.Failure
import LazyStack.Value

/-!
Host callables. What a host does is a program: a tree of actions on the running state, in which each
next action may depend on the replies before it. A program may go on after a failed action that it has
only attempted. It can do nothing that its actions do not name, so a law of all actions is a law of all
hosts.
-/

namespace LazyStack

inductive Action
  | pop (stack : StackId)
  | popMany (stack : StackId) (count : Int)
  | push (stack : StackId) (value : Value)
  | bind (scope : ScopeId) (name : String) (binding : Binding)
  | rebind (scope : ScopeId) (name : String) (binding : Binding)
  | call (callable : Callable) (frame : Frame) (args returns : Option Int)
  | run (code : List Step) (frame : Frame)
  | newScope (parent : Option ScopeId)
  | newStack
  | newPromise (scope : ScopeId) (body : List Step)
  | create (domain : DomainId) (tag : Tag) (payload : Payload)
  | nullOf (domain : DomainId)
  | expect (value : Value) (tag : Tag) (description : String)
  | count (host : HostId)
  | keep (host : HostId) (frame : Frame)
  | kept (host : HostId)
  | valueText (value : Value)
  | scopeText (scope : ScopeId)

abbrev Action.Reply : Action → Type
  | .pop _ => Value
  | .popMany _ _ => List Value
  | .push _ _ => Unit
  | .bind _ _ _ => Unit
  | .rebind _ _ _ => Unit
  | .call _ _ _ _ => Unit
  | .run _ _ => Unit
  | .newScope _ => ScopeId
  | .newStack => StackId
  | .newPromise _ _ => PromiseId
  | .create _ _ _ => Value
  | .nullOf _ => Value
  | .expect _ _ _ => Payload
  | .count _ => Nat
  | .keep _ _ => Unit
  | .kept _ => List Frame
  | .valueText _ => String
  | .scopeText _ => String

inductive Program (α : Type)
  | done (result : α)
  | fail (failure : Failure)
  | act (action : Action) (next : action.Reply → Program α)
  | attempt (action : Action) (next : Except Failure action.Reply → Program α)

namespace Program

variable {α β : Type}

def bind (program : Program α) (next : α → Program β) : Program β :=
  match program with
  | .done result => next result
  | .fail failure => .fail failure
  | .act action continued => .act action fun reply => (continued reply).bind next
  | .attempt action continued => .attempt action fun outcome => (continued outcome).bind next

def perform (action : Action) : Program action.Reply :=
  .act action .done

end Program

instance : Monad Program where
  pure := .done
  bind := Program.bind

/-- A host's behaviour, given the frame and the counts that the call site asks for. -/
abbrev HostBody := Frame → Option Int → Option Int → Program Unit

end LazyStack
