import LazyStack.State
import LazyStack.Value.Text

/-!
Text of what the state holds. A resolved promise shows its value, which may show further promises. A chain
of distinct promises is no longer than their number, so where more unfoldings would be needed a promise is
shown within its own text, and writing it never ends.
-/

namespace LazyStack

namespace State

variable (state : State)

def typeName (domain : DomainId) (tag : Tag) : String :=
  ((state.domain domain).names.get? tag).getD tag.label

def promiseText : Nat → PromiseId → Written String
  | 0, _ => .error .endless
  | unfoldings + 1, id =>
      match (state.promise id).value with
      | none => .ok "<promise>"
      | some value =>
          let naming : Naming := ⟨state.typeName, promiseText unfoldings⟩
          enclosed "<promise = " ">" (value.text naming .standard 0)

def naming : Naming :=
  ⟨state.typeName, state.promiseText (state.promises.size + 1)⟩

def valueText (value : Value) : Written String :=
  value.text state.naming .standard 0

def valueTagged (value : Value) : Written String :=
  value.tagged state.naming

def payloadQuoted (payload : Payload) : Written String :=
  payload.quoted state.naming

end State

def Scope.text (naming : Naming) (scope : Scope) : Written String :=
  let entries := scope.bindings.map fun entry => enclosed (entry.1 ++ ": ") "" (entry.2.text naming)
  let chained := if scope.parent.isSome then " -> ..." else ""
  enclosed "\x7b" ("\x7d" ++ chained) (joined ", " entries)

/-- What the log says of an event. An event that shows what has no text is not told. -/
def Event.message : Event → Option String
  | .executing steps => some s!"executing {steps} step(s)"
  | .closureCreated parameters => some ("created <closure (" ++ spaced parameters ++ ")>")
  | .promiseResolved _ text => text.toOption.map fun shown => s!"promise resolved to {shown}"

end LazyStack
