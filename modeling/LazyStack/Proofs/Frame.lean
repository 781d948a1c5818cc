import LazyStack.Proofs.Run

/-!
The frames that bodies run on. A body starts on an empty stack of its own, in a scope of its own that
binds its parameters, and gives back a value only if it leaves exactly one there.
-/

namespace LazyStack

namespace State

def bindAll (scope : ScopeId) : List String → List Value → State → State
  | name :: names, value :: values, state =>
      bindAll scope names values (state.bind scope name (.value value))
  | _, _, state => state

theorem bindAll_eq (scope : ScopeId) (names : List String) (values : List Value) (state : State) :
    state.bindAll scope names values = { state with scopes := (state.bindAll scope names values).scopes } := by
  induction names generalizing values state with
  | nil => rfl
  | cons name names ih =>
      cases values with
      | nil => rfl
      | cons value values => exact ih values (state.bind scope name (.value value))

theorem operandStacks_bindAll (scope : ScopeId) (names : List String) (values : List Value)
    (state : State) : (bindAll scope names values state).operandStacks = state.operandStacks := by
  rw [bindAll_eq]

def withFrame (state : State) (parent : Option ScopeId) : State :=
  { state with
    scopes := state.scopes.push ⟨[], parent⟩
    operandStacks := state.operandStacks.push [] }

def nextFrame (state : State) (depth : Int) : Frame :=
  ⟨⟨state.scopes.size⟩, ⟨state.operandStacks.size⟩, depth⟩

def withArguments (state : State) (scope : ScopeId) (parameters : List String) (frame : Frame) :
    State :=
  let operands := state.operands frame.stack
  let taken := state.setOperands frame.stack (operands.drop parameters.length)
  bindAll ⟨state.scopes.size⟩ parameters (operands.take parameters.length).reverse
    (taken.withFrame (some scope))

variable (state : State) (parent : Option ScopeId) (depth : Int)

theorem hasStack_withFrame : (state.withFrame parent).HasStack (state.nextFrame depth).stack := by
  simp [HasStack, withFrame, nextFrame]

theorem operands_withFrame : (state.withFrame parent).operands (state.nextFrame depth).stack = [] := by
  simp [operands, withFrame, nextFrame]

variable {state} in
theorem hasStack_withFrame_of_hasStack {stack : StackId} (made : state.HasStack stack) :
    (state.withFrame parent).HasStack stack := by
  rw [HasStack] at made
  simp only [HasStack, withFrame, Array.size_push]
  omega

variable {state} in
theorem operands_withFrame_of_hasStack {stack : StackId} (made : state.HasStack stack) :
    (state.withFrame parent).operands stack = state.operands stack := by
  rw [operands, withFrame, Array.getElem?_push_lt made, operands, Array.getElem?_eq_getElem made]

variable {state} in
theorem ne_nextFrame_stack {stack : StackId} (made : state.HasStack stack) :
    stack ≠ (state.nextFrame depth).stack := by
  intro same
  rw [same, HasStack, nextFrame] at made
  exact Nat.lt_irrefl _ made

theorem scope_withFrame (id : ScopeId) :
    (state.withFrame parent).scope id =
      if id.index = state.scopes.size then ⟨[], parent⟩ else state.scope id := by
  simp only [State.scope, withFrame, Array.getElem?_push]
  split <;> rfl

theorem nextFrame_setOperands (stack : StackId) (values : Operands) :
    (state.setOperands stack values).nextFrame depth = state.nextFrame depth := by
  simp [nextFrame, setOperands]

theorem operandStacks_withArguments (scope : ScopeId) (parameters : List String) (frame : Frame) :
    (state.withArguments scope parameters frame).operandStacks =
      (state.setOperands frame.stack
        ((state.operands frame.stack).drop parameters.length)).operandStacks.push [] := by
  rw [withArguments, operandStacks_bindAll, withFrame]

end State

theorem Run.newLocalFrame_apply (parent : Option ScopeId) (depth : Int) (state : State) :
    Run.newLocalFrame parent depth state =
      .ok (state.nextFrame (depth + 1)) (state.withFrame parent) :=
  rfl

theorem bindParameters_apply (scope : ScopeId) (names : List String) (values : List Value)
    (state : State) :
    bindParameters scope names values state = .ok () (state.bindAll scope names values) := by
  induction names generalizing values state with
  | nil => rfl
  | cons name names ih =>
      cases values with
      | nil => rfl
      | cons value values => exact ih values _

theorem requireDepth_apply (frame : Frame) (state : State) :
    requireDepth frame state =
      if (state.callLimit : Int) < frame.depth + 1 then .error (.tooDeep state.callLimit) state
      else .ok () state := by
  rw [requireDepth, Run.bind_of_ok (Run.get_apply state)]
  by_cases deep : (state.callLimit : Int) < frame.depth + 1
  · rw [if_pos deep]
    simp only [if_pos deep]
    rfl
  · rw [if_neg deep]
    simp only [if_neg deep]
    rfl

theorem enterPromise_apply (scope : Option ScopeId) (frame : Frame) (state : State) :
    enterPromise scope frame state =
      if (state.callLimit : Int) < frame.depth + 1 then .error (.tooDeep state.callLimit) state
      else .ok (state.nextFrame (frame.depth + 1)) (state.withFrame scope) := by
  rw [enterPromise, Run.bind_apply, requireDepth_apply]
  by_cases deep : (state.callLimit : Int) < frame.depth + 1
  · rw [if_pos deep, if_pos deep]
  · rw [if_neg deep, if_neg deep]
    rfl

theorem enterClosure_apply (scope : ScopeId) (parameters : List String) (frame : Frame)
    (state : State) :
    enterClosure scope parameters frame state =
      if (state.callLimit : Int) < frame.depth + 1 then .error (.tooDeep state.callLimit) state
      else if (state.operands frame.stack).length < parameters.length then
        .error (.shortStack parameters.length (state.operands frame.stack).length) state
      else
        .ok (state.nextFrame (frame.depth + 1)) (state.withArguments scope parameters frame) := by
  have checked := requireDepth_apply frame state
  have taken := frame.stack.popMany_apply state parameters.length
  rw [enterClosure]
  by_cases deep : (state.callLimit : Int) < frame.depth + 1
  · rw [if_pos deep] at checked ⊢
    exact Run.bind_of_error checked
  · rw [if_neg deep] at checked ⊢
    rw [Run.bind_of_ok checked]
    by_cases short : (state.operands frame.stack).length < parameters.length
    · rw [if_pos (by omega)] at taken
      rw [if_pos short, Run.bind_of_error taken]
    · rw [if_neg (by omega), Operands.blockSize, if_pos (by omega), Int.toNat_natCast] at taken
      rw [if_neg short, Run.bind_of_ok taken, Run.bind_of_ok (Run.newLocalFrame_apply _ _ _),
        Run.bind_of_ok (bindParameters_apply _ _ _ _), State.nextFrame_setOperands, Run.pure_apply,
        State.nextFrame, State.withArguments]

theorem enterClosure_eq_ok {scope : ScopeId} {parameters : List String} {frame inner : Frame}
    {state start : State} (entered : enterClosure scope parameters frame state = .ok inner start) :
    frame.depth + 1 ≤ (state.callLimit : Int) ∧ parameters.length ≤ (state.operands frame.stack).length ∧
      inner = state.nextFrame (frame.depth + 1) ∧ start = state.withArguments scope parameters frame := by
  rw [enterClosure_apply] at entered
  split at entered
  · cases entered
  · split at entered
    · cases entered
    · cases entered
      exact ⟨by omega, by omega, rfl, rfl⟩

theorem enterPromise_eq_ok {scope : Option ScopeId} {frame inner : Frame} {state start : State}
    (entered : enterPromise scope frame state = .ok inner start) :
    frame.depth + 1 ≤ (state.callLimit : Int) ∧ inner = state.nextFrame (frame.depth + 1) ∧
      start = state.withFrame scope := by
  rw [enterPromise_apply] at entered
  split at entered
  · cases entered
  · cases entered
    exact ⟨by omega, rfl, rfl⟩

theorem enterClosure_eq_error {scope : ScopeId} {parameters : List String} {frame : Frame} {failure : Failure}
    {state final : State} (failed : enterClosure scope parameters frame state = .error failure final) :
    final = state ∧ (failure = .tooDeep state.callLimit ∨
      failure = .shortStack parameters.length (state.operands frame.stack).length) := by
  rw [enterClosure_apply] at failed
  split at failed
  · cases failed
    exact ⟨rfl, .inl rfl⟩
  · split at failed
    · cases failed
      exact ⟨rfl, .inr rfl⟩
    · cases failed

theorem enterPromise_eq_error {scope : Option ScopeId} {frame : Frame} {failure : Failure} {state final : State}
    (failed : enterPromise scope frame state = .error failure final) :
    final = state ∧ failure = .tooDeep state.callLimit := by
  rw [enterPromise_apply] at failed
  split at failed
  · cases failed
    exact ⟨rfl, rfl⟩
  · cases failed

theorem enterClosure_starts_empty {scope : ScopeId} {parameters : List String} {frame inner : Frame}
    {state start : State} (entered : enterClosure scope parameters frame state = .ok inner start) :
    start.HasStack inner.stack ∧ start.operands inner.stack = [] := by
  obtain ⟨-, -, rfl, rfl⟩ := enterClosure_eq_ok entered
  rw [State.HasStack, State.operands, State.operandStacks_withArguments,
    ← State.nextFrame_setOperands state _ frame.stack]
  exact ⟨State.hasStack_withFrame _ (some scope) _, State.operands_withFrame _ (some scope) _⟩

theorem enterPromise_starts_empty {scope : Option ScopeId} {frame inner : Frame} {state start : State}
    (entered : enterPromise scope frame state = .ok inner start) :
    start.HasStack inner.stack ∧ start.operands inner.stack = [] := by
  obtain ⟨-, rfl, rfl⟩ := enterPromise_eq_ok entered
  exact ⟨State.hasStack_withFrame _ _ _, State.operands_withFrame _ _ _⟩

theorem soleResult_of_one {stack : StackId} {failure : Nat → Failure} {state : State} {value : Value}
    (alone : state.operands stack = [value]) :
    soleResult stack failure state = .ok value (state.setOperands stack []) := by
  have count : (state.operands stack).length = 1 := by
    rw [alone]
    rfl
  rw [soleResult, Run.bind_of_ok (stack.size_apply state), if_pos count]
  exact stack.pop_of_cons state alone

theorem soleResult_of_ne_one {stack : StackId} {state : State}
    (several : (state.operands stack).length ≠ 1) (failure : Nat → Failure) :
    soleResult stack failure state = .error (failure (state.operands stack).length) state := by
  rw [soleResult, Run.bind_of_ok (stack.size_apply state), if_neg several]
  rfl

theorem runPromise_of_value {machine : Machine} {id : PromiseId} {frame : Frame} {state : State}
    {value : Value} (resolved : (state.promise id).value = some value) :
    runPromise machine id frame state = frame.stack.push value state := by
  rw [runPromise, Run.bind_of_ok (Run.get_apply state), resolved]

theorem runPromise_of_pending {machine : Machine} {id : PromiseId} {frame : Frame} {state : State}
    (pending : (state.promise id).value = none) :
    runPromise machine id frame state =
      ((state.promise id).compute machine frame >>= fun value => do
        modify fun state => state.resolve id value
        Run.record (.promiseResolved id ((← get).valueText value))
        frame.stack.push value) state := by
  rw [runPromise, Run.bind_of_ok (Run.get_apply state), pending]

end LazyStack
