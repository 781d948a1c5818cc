import LazyStack.State.Text

/-!
Operand stacks. A block pop yields its values in the order in which they were pushed, and takes nothing
when the stack is too short. A negative count -k takes all but the k bottom values.
-/

namespace LazyStack

namespace Operands

def pop : Operands → Except Failure (Value × Operands)
  | [] => .error .underflow
  | top :: rest => .ok (top, rest)

def peek : Operands → Except Failure Value
  | [] => .error .underflow
  | top :: _ => .ok top

def blockSize (operands : Operands) (count : Int) : Nat :=
  if 0 ≤ count then count.toNat else operands.length - (-count).toNat

def popMany (count : Int) (operands : Operands) : Except Failure (List Value × Operands) :=
  if (operands.length : Int) < count then
    .error (.shortStack count operands.length)
  else
    let size := operands.blockSize count
    .ok ((operands.take size).reverse, operands.drop size)

end Operands

namespace StackId

variable (stack : StackId)

def operands : Run Operands := do
  return (← get).operands stack

def push (value : Value) : Run Unit :=
  modify fun state => state.setOperands stack (value :: state.operands stack)

def pop : Run Value := do
  match ((← get).operands stack).pop with
  | .ok (top, rest) =>
      modify fun state => state.setOperands stack rest
      return top
  | .error failure => throw failure

def popMany (count : Int) : Run (List Value) := do
  match ((← get).operands stack).popMany count with
  | .ok (values, rest) =>
      modify fun state => state.setOperands stack rest
      return values
  | .error failure => throw failure

def peek : Run Value := do
  match ((← get).operands stack).peek with
  | .ok top => return top
  | .error failure => throw failure

def size : Run Nat := do
  return (← stack.operands).length

def clear : Run Unit :=
  modify fun state => state.setOperands stack []

end StackId

def State.stackValues (state : State) (stack : StackId) : List Value :=
  (state.operands stack).reverse

def State.stackText (state : State) (stack : StackId) : Written String :=
  enclosed "Stack(" ")" (listed ((state.stackValues stack).map state.valueTagged))

namespace Run

def newTopFrame (scope : ScopeId) : Run Frame := do
  return ⟨scope, ← newStack, 0⟩

/-- A frame on a fresh stack and a fresh child of a scope, one level below its caller. -/
def newLocalFrame (parent : Option ScopeId) (callerDepth : Int) : Run Frame := do
  let scope ← newScope parent
  let stack ← newStack
  return ⟨scope, stack, callerDepth + 1⟩

end Run

end LazyStack
