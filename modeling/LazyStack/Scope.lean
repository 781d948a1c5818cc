import LazyStack.Domain

/-!
Scopes. A name is looked up along the chain of parents from the scope itself outward, and belongs to
the first scope that binds it. A parent is always older than its children, so following parents at
most as often as the number of the scope reaches the end of the chain.
-/

namespace LazyStack

namespace State

variable (state : State)

def chainUpTo : Nat → ScopeId → List ScopeId
  | 0, scope => [scope]
  | links + 1, scope =>
      match (state.scope scope).parent with
      | some parent => scope :: chainUpTo links parent
      | none => [scope]

def chain (scope : ScopeId) : List ScopeId :=
  state.chainUpTo scope.index scope

def binds (name : String) (scope : ScopeId) : Bool :=
  ((state.scope scope).bindings.get? name).isSome

def owner? (scope : ScopeId) (name : String) : Option ScopeId :=
  (state.chain scope).find? (state.binds name)

def lookup? (scope : ScopeId) (name : String) : Option Binding :=
  (state.owner? scope name).bind fun owner => (state.scope owner).bindings.get? name

def bind (scope : ScopeId) (name : String) (binding : Binding) : State :=
  let current := state.scope scope
  state.setScope scope { current with bindings := current.bindings.put name binding }

def hops? (scope : ScopeId) (name : String) : Option Nat :=
  (state.chain scope).findIdx? (state.binds name)

def scopeText (scope : ScopeId) : Written String :=
  (state.scope scope).text state.naming

def scopeSummary (scope : ScopeId) : String :=
  let names := (state.scope scope).bindings.keys.mergeSort fun left right => left ≤ right
  let depth := (state.chain scope).length - 1
  "<Scope [" ++ String.intercalate ", " (names.map quoteText) ++ s!"] depth={depth}>"

end State

namespace ScopeId

variable (scope : ScopeId)

def bind (name : String) (binding : Binding) : Run Unit :=
  modify fun state => state.bind scope name binding

def lookup (name : String) : Run Binding := do
  match (← get).lookup? scope name with
  | some binding => return binding
  | none => throw (.unboundLookup name)

def rebind (name : String) (binding : Binding) : Run Unit := do
  match (← get).owner? scope name with
  | some owner => owner.bind name binding
  | none => throw (.unboundRebind name)

/-- Binds under a literal, which has to be a name. -/
def bindLiteral (name : Literal) (binding : Binding) : Run Unit :=
  match name.name? with
  | some text => scope.bind text binding
  | none => throw (.unbindable name.quoted)

def lookupLiteral (name : Literal) : Run Binding :=
  match name.name? with
  | some text => scope.lookup text
  | none => throw (.unboundLookup name.bare)

def rebindLiteral (name : Literal) (binding : Binding) : Run Unit :=
  match name.name? with
  | some text => scope.rebind text binding
  | none => throw (.unboundRebind name.bare)

end ScopeId

end LazyStack
