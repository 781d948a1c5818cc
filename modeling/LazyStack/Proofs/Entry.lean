import LazyStack.Proofs.Frame
import LazyStack.Proofs.Moment

/-!
Entries. The body of a closure or of a pending promise is entered by opening a scope and a stack that no
earlier state has. The scope of a closure binds each parameter to its argument before any step of the
body runs, and the scope of a promise binds nothing.
-/

namespace LazyStack

def Scope.ofArguments (parent : Option ScopeId) (names : List String) (values : List Value) : Scope :=
  ⟨(names.zip values).foldl (fun bindings entry => bindings.put entry.1 (.value entry.2)) [], parent⟩

namespace State

theorem promises_bindAll (scope : ScopeId) (names : List String) (values : List Value) (state : State) :
    (state.bindAll scope names values).promises = state.promises := by
  rw [bindAll_eq]

theorem scopes_bindAll {state : State} {older : Array Scope} {bindings : Table String Binding}
    {parent : Option ScopeId} (last : state.scopes = older.push ⟨bindings, parent⟩) (names : List String)
    (values : List Value) :
    (state.bindAll ⟨older.size⟩ names values).scopes = older.push
      ⟨(names.zip values).foldl (fun bindings entry => bindings.put entry.1 (.value entry.2)) bindings,
        parent⟩ := by
  induction names generalizing values state bindings with
  | nil => exact last
  | cons name names ih =>
      cases values with
      | nil => exact last
      | cons value values =>
          have bound : (state.bind ⟨older.size⟩ name (.value value)).scopes =
              older.push ⟨bindings.put name (.value value), parent⟩ := by
            simp [State.bind, setScope, State.scope, last, Array.setIfInBounds, Array.set_push]
          exact ih bound values

end State

namespace Moment

/-- A body opens a frame with a scope of its own, and its code begins there. -/
inductive Enters : Moment → Scope → Frame → State → Prop
  | closure {budget scope code parameters frame args returns state inner start} :
      enterClosure scope parameters frame state = .ok inner start →
      Enters ⟨budget, .body (.closure scope code parameters) frame args returns, state⟩
        (.ofArguments (some scope) parameters
          ((state.operands frame.stack).take parameters.length).reverse) inner start
  | promise {budget id frame args returns state inner start} :
      (state.promise id).value = none →
      enterPromise (state.promise id).scope frame state = .ok inner start →
      Enters ⟨budget, .body (.promise id) frame args returns, state⟩ ⟨[], (state.promise id).scope⟩
        inner start

end Moment

/-- A state goes on from another with one more scope and one more stack. -/
structure State.Opens (before : State) (opened : Scope) (inner : Frame) (start : State) : Prop where
  scopes : start.scopes = before.scopes.push opened
  promises : start.promises = before.promises
  operandStacks : start.operandStacks.size = before.operandStacks.size + 1
  scope : inner.scope = ⟨before.scopes.size⟩
  stack : inner.stack = ⟨before.operandStacks.size⟩

section Opens

variable {before start : State} {opened : Scope} {inner : Frame}
  (opens : before.Opens opened inner start)
include opens

theorem State.Opens.scope_new : start.scope inner.scope = opened := by
  rw [opens.scope, State.scope, opens.scopes]
  simp

theorem State.Opens.scope_old {scope : ScopeId} (present : scope.index < before.scopes.size) :
    start.scope scope = before.scope scope := by
  rw [State.scope, opens.scopes, Array.getElem?_push_lt present, State.scope,
    Array.getElem?_eq_getElem present]

theorem State.Opens.promise (id : PromiseId) : start.promise id = before.promise id := by
  rw [State.promise, opens.promises, State.promise]

theorem State.Opens.stack_apart {stack : StackId} (made : before.HasStack stack) : stack ≠ inner.stack := by
  intro same
  rw [same, State.HasStack, opens.stack] at made
  exact Nat.lt_irrefl _ made

end Opens

theorem enterClosure_opens {scope : ScopeId} {parameters : List String} {frame inner : Frame}
    {state start : State} (entered : enterClosure scope parameters frame state = .ok inner start) :
    state.Opens (.ofArguments (some scope) parameters
      ((state.operands frame.stack).take parameters.length).reverse) inner start := by
  obtain ⟨-, -, rfl, rfl⟩ := enterClosure_eq_ok entered
  refine ⟨State.scopes_bindAll rfl _ _, State.promises_bindAll _ _ _ _, ?_, rfl, rfl⟩
  rw [State.operandStacks_withArguments]
  simp [State.setOperands]

theorem enterClosure_deeper {scope : ScopeId} {parameters : List String} {frame inner : Frame}
    {state start : State} (entered : enterClosure scope parameters frame state = .ok inner start) :
    inner.depth = frame.depth + 1 ∧ frame.depth + 1 ≤ (state.callLimit : Int) := by
  obtain ⟨shallow, -, rfl, -⟩ := enterClosure_eq_ok entered
  exact ⟨rfl, shallow⟩

theorem enterPromise_deeper {scope : Option ScopeId} {frame inner : Frame} {state start : State}
    (entered : enterPromise scope frame state = .ok inner start) :
    inner.depth = frame.depth + 1 ∧ frame.depth + 1 ≤ (state.callLimit : Int) := by
  obtain ⟨shallow, rfl, -⟩ := enterPromise_eq_ok entered
  exact ⟨rfl, shallow⟩

theorem enterClosure_operands {scope : ScopeId} {parameters : List String} {frame inner : Frame}
    {state start : State} (entered : enterClosure scope parameters frame state = .ok inner start)
    {stack : StackId} (made : state.HasStack stack) (other : stack ≠ frame.stack) :
    start.operands stack = state.operands stack := by
  obtain ⟨-, -, -, rfl⟩ := enterClosure_eq_ok entered
  have still : (state.setOperands frame.stack
      ((state.operands frame.stack).drop parameters.length)).HasStack stack :=
    State.hasStack_setOperands.mpr made
  rw [State.operands, State.operandStacks_withArguments, Array.getElem?_push_lt still,
    ← Array.getElem?_eq_getElem still, ← State.operands,
    State.operands_setOperands_of_ne state other.symm]

theorem enterPromise_operands {scope : Option ScopeId} {frame inner : Frame} {state start : State}
    (entered : enterPromise scope frame state = .ok inner start) {stack : StackId} (made : state.HasStack stack) :
    start.operands stack = state.operands stack := by
  obtain ⟨-, -, rfl⟩ := enterPromise_eq_ok entered
  exact State.operands_withFrame_of_hasStack _ made

theorem enterPromise_opens {scope : Option ScopeId} {frame inner : Frame} {state start : State}
    (entered : enterPromise scope frame state = .ok inner start) :
    state.Opens ⟨[], scope⟩ inner start := by
  obtain ⟨-, rfl, rfl⟩ := enterPromise_eq_ok entered
  exact ⟨rfl, rfl, Array.size_push _, rfl, rfl⟩

namespace Moment

variable {moment : Moment} {opened : Scope} {inner : Frame} {start : State}

theorem Enters.opens (enters : moment.Enters opened inner start) :
    moment.state.Opens opened inner start := by
  cases enters with
  | closure entered => exact enterClosure_opens entered
  | promise pending entered => exact enterPromise_opens entered

theorem Enters.operands (enters : moment.Enters opened inner start) :
    ∃ target frame args returns, moment.activity = .body target frame args returns ∧
      ∀ {stack}, moment.state.HasStack stack → stack ≠ frame.stack →
        start.operands stack = moment.state.operands stack := by
  cases enters with
  | closure entered =>
      exact ⟨_, _, _, _, rfl, fun made other => enterClosure_operands entered made other⟩
  | promise pending entered =>
      exact ⟨_, _, _, _, rfl, fun made _ => enterPromise_operands entered made⟩

end Moment

end LazyStack
