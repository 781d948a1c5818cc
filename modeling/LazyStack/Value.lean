import LazyStack.Tag

/-!
Values, callables and the steps of compiled code. A value is a payload under a tag of some domain. Its
identity tells it from every other value made, however alike they are, which is how the one null that
ends a list is known. Scopes, stacks, promises and hosts live in the running state, and values refer
to them by number.
-/

namespace LazyStack

structure DomainId where
  index : Nat
  deriving DecidableEq, Repr

structure ScopeId where
  index : Nat
  deriving DecidableEq, Repr

structure StackId where
  index : Nat
  deriving DecidableEq, Repr

structure PromiseId where
  index : Nat
  deriving DecidableEq, Repr

structure HostId where
  index : Nat
  deriving DecidableEq, Repr

structure Signature where
  args : Int
  returns : Int
  deriving DecidableEq, Repr

/-- What a host declares of a callable. Without a signature its counts are not checked. -/
structure HostHeader where
  name : String
  signature : Option Signature
  deriving DecidableEq, Repr

mutual

structure Value where
  domain : DomainId
  tag : Tag
  payload : Payload
  identity : Nat

/-- The datum of a value. The null that is `shared` is one object for all domains. -/
inductive Payload
  | null (shared : Bool)
  | bool (value : Bool)
  | int (value : Int)
  | float (bits : UInt64)
  | text (value : String)
  | symbol (name : String)
  | bytes (values : List UInt8)
  | cell (head tail : Value)
  | code (steps : List Step)
  | callable (callable : Callable)

inductive Callable
  | closure (scope : ScopeId) (body : List Step) (parameters : List String)
  | promise (promise : PromiseId)
  | makeClosure (domain : DomainId)
  | delay
  | force
  | isPromise
  | host (host : HostId) (header : HostHeader)

/-- One instruction of compiled code. A call site may leave either of its counts open. -/
inductive Step
  | push (value : Value)
  | get (name : String)
  | call (name : String) (args returns : Option Int)
  | note (text : String)

end

/-- What a name is bound to: a value, or a callable that no value wraps. -/
inductive Binding
  | value (value : Value)
  | callable (callable : Callable)

structure Frame where
  scope : ScopeId
  stack : StackId
  depth : Int
  deriving DecidableEq, Repr

def Value.same (left right : Value) : Bool :=
  left.identity == right.identity

/-! What a payload holds, where its tag already tells its kind. -/

def Payload.truth : Payload → Bool
  | .bool value => value
  | _ => false

/-- The integer that a payload counts as: a truth value counts as zero or one. -/
def Payload.integer : Payload → Int
  | .int value => value
  | .bool value => if value then 1 else 0
  | _ => 0

def Payload.characters : Payload → String
  | .text value => value
  | _ => ""

def Payload.symbolName : Payload → String
  | .symbol name => name
  | _ => ""

def Payload.steps : Payload → List Step
  | .code steps => steps
  | _ => []

def Callable.kind : Callable → String
  | .closure _ _ _ => "Closure"
  | .promise _ => "Promise"
  | .makeClosure _ => "ClosureSymbol"
  | .delay => "DelaySymbol"
  | .force => "ForceSymbol"
  | .isPromise => "IsPromiseSymbol"
  | .host _ header => header.name

def Callable.signature? : Callable → Option Signature
  | .closure _ _ parameters => some ⟨parameters.length, 1⟩
  | .promise _ => some ⟨0, 1⟩
  | .makeClosure _ => some ⟨2, 1⟩
  | .delay => some ⟨1, 1⟩
  | .force => some ⟨1, 1⟩
  | .isPromise => some ⟨1, 1⟩
  | .host _ header => header.signature

def Callable.classes (callable : Callable) : List Tag :=
  let general := if callable.signature?.isSome then [.fixed, .callable, .object] else [.callable, .object]
  match callable with
  | .closure _ _ _ => .closure :: general
  | .promise _ => .promise :: general
  | _ => general

/-- The classes of a payload, the narrowest first. A truth value counts as an integer. -/
def Payload.classes : Payload → List Tag
  | .null _ => [.null, .object]
  | .bool _ => [.bool, .int, .object]
  | .int _ => [.int, .object]
  | .float _ => [.float, .object]
  | .text _ => [.text, .object]
  | .symbol _ => [.symbol, .object]
  | .bytes _ => [.bytes, .object]
  | .cell _ _ => [.cell, .object]
  | .code _ => [.code, .object]
  | .callable target => target.classes

def Payload.isInstance (payload : Payload) (tag : Tag) : Bool :=
  payload.classes.any fun own => own = tag ∨ own.label ∈ tag.members

def Payload.className : Payload → String
  | .null _ => Tag.null.label
  | .bool _ => Tag.bool.label
  | .int _ => Tag.int.label
  | .float _ => Tag.float.label
  | .text _ => Tag.text.label
  | .symbol _ => Tag.symbol.label
  | .bytes _ => Tag.bytes.label
  | .cell _ _ => Tag.cell.label
  | .code _ => Tag.code.label
  | .callable target => target.kind

end LazyStack
