import LazyStack.Environment

/-!
Replies of a session. A summary shows a value or a bare callable from outside: its type and text, and
for nulls, closures and promises what tells them apart.
-/

namespace LazyStack

structure Summary where
  typeName : Option String
  text : String
  canonical : Option Bool
  parameters : Option (List String)
  resolved : Option Bool
  released : Option Bool
  deriving DecidableEq, Repr

inductive Reply
  | done
  | number (value : Int)
  | text (value : String)
  | names (values : List String)
  | summary (value : Summary)
  | summaries (values : List Summary)
  | wrapped (value : Summary) (tag : Tag)
  | code (length : Nat) (listing : String) (steps : List String) (text : String)
  | frame (text : String) (depth : Int) (scope : String)
  | ran (failure : Option Failure) (stack : List Summary)
  | node (kind text : String) (parameterName : Option String) (children : List String)
      (parameterList : Option Summary)
  | value (text tagged payload : String)
  | symbol (text quoted : String)
  | list (items : List (Summary × Bool)) (texts : List String) (terminator : Summary)
  | scope (isGlobal : Bool) (text summary : String)
  | owner (hops : Option Nat)
  | block (taken left : List Summary)
  | stack (items : List Summary) (text : String)
  deriving DecidableEq, Repr

def Callable.parameters? : Callable → Option (List String)
  | .closure _ _ parameters => some parameters
  | _ => none

namespace State

variable (state : State)

def isResolved (promise : PromiseId) : Bool :=
  (state.promise promise).value.isSome

def isReleased (promise : PromiseId) : Bool :=
  (state.promise promise).scope.isNone && (state.promise promise).body.isNone

def resolved? : Callable → Option Bool
  | .promise id => some (state.isResolved id)
  | _ => none

def released? : Callable → Option Bool
  | .promise id => some (state.isReleased id)
  | _ => none

def summarizeCallable (target : Callable) : Written Summary := do
  let text ← target.text state.naming
  return { typeName := none
           text := text
           canonical := none
           parameters := target.parameters?
           resolved := state.resolved? target
           released := state.released? target }

def summarize (value : Value) : Written Summary := do
  let target := match value.payload with
    | .callable target => some target
    | _ => none
  let text ← state.valueText value
  return { typeName := some (state.typeName value.domain value.tag)
           text := text
           canonical := if value.tag = .null then some (value.isCanonicalNull state) else none
           parameters := target.bind Callable.parameters?
           resolved := target.bind state.resolved?
           released := target.bind state.released? }

def summarizeAll (values : List Value) : Written (List Summary) :=
  gathered (values.map state.summarize)

def summarizeBinding : Binding → Written Summary
  | .value value => state.summarize value
  | .callable target => state.summarizeCallable target

def summarizeStack (stack : StackId) : Written (List Summary) :=
  state.summarizeAll (state.stackValues stack)

end State

end LazyStack
