import LazyStack.Host
import LazyStack.Table

/-!
The running state and the monad over it. Every domain, scope, stack, promise and host made so far keeps
its number for good, and every host has a memory of its own, which starts out empty. A failure keeps the
state reached, so what a failed run has already changed stays changed.
-/

namespace LazyStack

abbrev Operands := List Value

structure Domain where
  names : Table Tag String
  null : Value

structure Scope where
  bindings : Table String Binding
  parent : Option ScopeId

/-- A promise holds its scope and body until it holds a value instead. -/
structure Promise where
  scope : Option ScopeId
  body : Option (List Step)
  value : Option Value

def Promise.pending (scope : ScopeId) (body : List Step) : Promise :=
  ⟨some scope, some body, none⟩

def Promise.resolved (value : Value) : Promise :=
  ⟨none, none, some value⟩

inductive Event
  | executing (steps : Nat)
  | closureCreated (parameters : List String)
  | promiseResolved (promise : PromiseId) (text : Written String)
  deriving Repr

/-- What a host remembers from call to call: a count, and frames that it has kept. -/
structure Memory where
  count : Nat
  frames : List Frame
  deriving DecidableEq, Repr

def Memory.empty : Memory := ⟨0, []⟩

structure State where
  domains : Array Domain
  scopes : Array Scope
  operandStacks : Array Operands
  promises : Array Promise
  hosts : Array HostBody
  hostMemories : Array Memory
  log : Array Event
  nextIdentity : Nat
  callLimit : Nat

abbrev Run := EStateM Failure State

def State.empty (callLimit : Nat) : State :=
  { domains := #[], scopes := #[], operandStacks := #[], promises := #[], hosts := #[],
    hostMemories := #[], log := #[], nextIdentity := 0, callLimit := callLimit }

namespace State

variable (state : State)

def domain (id : DomainId) : Domain :=
  state.domains[id.index]?.getD ⟨[], ⟨id, .null, .null true, 0⟩⟩

def scope (id : ScopeId) : Scope :=
  state.scopes[id.index]?.getD ⟨[], none⟩

def operands (id : StackId) : Operands :=
  state.operandStacks[id.index]?.getD []

def promise (id : PromiseId) : Promise :=
  state.promises[id.index]?.getD ⟨none, some [], none⟩

def hostBody (id : HostId) : HostBody :=
  state.hosts[id.index]?.getD fun _ _ _ => .done ()

def memory (id : HostId) : Memory :=
  state.hostMemories[id.index]?.getD .empty

def setOperands (id : StackId) (operands : Operands) : State :=
  { state with operandStacks := state.operandStacks.setIfInBounds id.index operands }

def setScope (id : ScopeId) (scope : Scope) : State :=
  { state with scopes := state.scopes.setIfInBounds id.index scope }

def resolve (id : PromiseId) (value : Value) : State :=
  { state with promises := state.promises.setIfInBounds id.index (.resolved value) }

def remember (id : HostId) (memory : Memory) : State :=
  { state with hostMemories := state.hostMemories.setIfInBounds id.index memory }

def record (event : Event) : State :=
  { state with log := state.log.push event }

end State

namespace Run

def freshValue (domain : DomainId) (tag : Tag) (payload : Payload) : Run Value :=
  modifyGet fun state =>
    (⟨domain, tag, payload, state.nextIdentity⟩, { state with nextIdentity := state.nextIdentity + 1 })

def newScope (parent : Option ScopeId) : Run ScopeId :=
  modifyGet fun state =>
    (⟨state.scopes.size⟩, { state with scopes := state.scopes.push ⟨[], parent⟩ })

def newStack : Run StackId :=
  modifyGet fun state => (⟨state.operandStacks.size⟩, { state with operandStacks := state.operandStacks.push [] })

def newPromise (scope : ScopeId) (body : List Step) : Run PromiseId :=
  modifyGet fun state =>
    (⟨state.promises.size⟩, { state with promises := state.promises.push (.pending scope body) })

/-- Makes a host whose body may refer to the host itself. -/
def newHost (body : HostId → HostBody) : Run HostId :=
  modifyGet fun state =>
    let id : HostId := ⟨state.hosts.size⟩
    (id, { state with
      hosts := state.hosts.push (body id)
      hostMemories := state.hostMemories.push .empty })

def count (id : HostId) : Run Nat :=
  modifyGet fun state =>
    let next := (state.memory id).count + 1
    (next, state.remember id { state.memory id with count := next })

def keep (id : HostId) (frame : Frame) : Run Unit :=
  modify fun state =>
    state.remember id { state.memory id with frames := frame :: (state.memory id).frames }

def record (event : Event) : Run Unit :=
  modify fun state => state.record event

/-- Replies with the failure of a run that fails, and keeps what the run has changed. A want of budget
is the failure that no one can go on after. -/
def outcome {α : Type} (run : Run α) : Run (Except Failure α) := fun state =>
  match run state with
  | .ok result final => .ok (.ok result) final
  | .error failure final =>
      if failure.kind = .budget then .error failure final else .ok (.error failure) final

end Run

end LazyStack
