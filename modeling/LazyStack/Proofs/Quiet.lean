import LazyStack.Proofs.Effect

/-!
What the log does not notice. Operands are pushed and popped, values and promises made, bodies entered and hosts act
by themselves without a word.
-/

namespace LazyStack

namespace Run

variable {α β : Type} {run : Run α} {state final : State}

/-- A run that leaves the log as it is, whether it succeeds or fails. -/
def Quiet (run : Run α) : Prop :=
  ∀ state, (run.after state).log = state.log

theorem Quiet.of_ok (quiet : Quiet run) {result : α} (ran : run state = .ok result final) :
    final.log = state.log := by
  rw [← quiet state, after_of_ok ran]

theorem Quiet.of_error (quiet : Quiet run) {failure : Failure} (failed : run state = .error failure final) :
    final.log = state.log := by
  rw [← quiet state, after_of_error failed]

theorem Reads.quiet (reads : Reads run) : Quiet run :=
  fun state => congrArg State.log (reads state)

theorem log_bind {next : α → Run β}
    (rest : ∀ result middle, run state = .ok result middle → ((next result).after middle).log = middle.log) :
    ((run >>= next).after state).log = (run.after state).log := by
  rw [after_bind, after]
  cases outcome : run state with
  | ok result middle => exact rest result middle outcome
  | error failure middle => rfl

theorem Quiet.bind (first : Quiet run) {next : α → Run β} (rest : ∀ result, Quiet (next result)) :
    Quiet (run >>= next) :=
  fun state => (log_bind fun result middle _ => rest result middle).trans (first state)

theorem quiet_push (stack : StackId) (value : Value) : Quiet (stack.push value) :=
  fun _ => rfl

theorem quiet_pop (stack : StackId) : Quiet stack.pop := by
  intro state
  cases present : state.operands stack with
  | nil => rw [after_of_error (stack.pop_of_nil state present)]
  | cons value rest =>
      rw [after_of_ok (stack.pop_of_cons state present)]
      rfl

theorem quiet_soleResult (stack : StackId) (failure : Nat → Failure) : Quiet (soleResult stack failure) := by
  refine Quiet.bind (Reads.quiet fun _ => rfl) fun count => ?_
  split
  · exact quiet_pop stack
  · exact (reads_throw _).quiet

theorem quiet_create (domain : DomainId) (tag : Tag) (payload : Payload) :
    Quiet (domain.create tag payload) := by
  refine Quiet.bind (domain.reads_typeName tag).quiet fun name => ?_
  split
  · exact fun _ => rfl
  · exact (reads_get.bind fun _ => reads_throw _).quiet

theorem Quiet.compositionalOn (stack : StackId) :
    CompositionalOn stack fun run state => (run.after state).log = state.log where
  bind first rest := (log_bind rest).trans first
  pure _ _ := rfl
  refuse _ _ _ := rfl
  refuseShowing _ _ _ _ := rfl
  null _ _ := rfl
  typeName domain tag := (domain.reads_typeName tag).quiet
  lookup scope name := (scope.reads_lookup name).quiet
  pop := quiet_pop stack
  push := quiet_push stack
  create := quiet_create
  newPromise _ _ _ := rfl

end Run

theorem log_bindAll (scope : ScopeId) (names : List String) (values : List Value) (state : State) :
    (state.bindAll scope names values).log = state.log := by
  rw [State.bindAll_eq]

theorem quiet_enterClosure (scope : ScopeId) (parameters : List String) (frame : Frame) :
    Run.Quiet (enterClosure scope parameters frame) := by
  intro state
  cases entered : enterClosure scope parameters frame state with
  | error failure final =>
      rw [Run.after_of_error entered, (enterClosure_eq_error entered).1]
  | ok inner start =>
      obtain ⟨-, -, -, rfl⟩ := enterClosure_eq_ok entered
      rw [Run.after_of_ok entered]
      exact log_bindAll _ _ _ _

theorem quiet_enterPromise (scope : Option ScopeId) (frame : Frame) :
    Run.Quiet (enterPromise scope frame) := by
  intro state
  cases entered : enterPromise scope frame state with
  | error failure final =>
      rw [Run.after_of_error entered, (enterPromise_eq_error entered).1]
  | ok inner start =>
      obtain ⟨-, -, rfl⟩ := enterPromise_eq_ok entered
      rw [Run.after_of_ok entered]
      rfl

theorem Action.Direct.quiet {action : Action} (direct : action.Direct) (machine : Machine) :
    Run.Quiet (action.perform machine) := by
  cases action with
  | pop stack => exact Run.quiet_pop stack
  | popMany stack count =>
      intro state
      rw [perform, Run.after, stack.popMany_apply]
      by_cases short : ((state.operands stack).length : Int) < count
      · rw [if_pos short]
      · rw [if_neg short]
        rfl
  | push stack value => exact Run.quiet_push stack value
  | bind scope name binding => exact fun _ => rfl
  | rebind scope name binding =>
      refine Run.Quiet.bind (Run.Reads.quiet Run.reads_get) fun reached => ?_
      cases reached.owner? scope name with
      | none => exact (Run.reads_throw _).quiet
      | some owner => exact fun _ => rfl
  | call target frame args returns => cases direct
  | run code frame => cases direct
  | newScope parent => exact fun _ => rfl
  | newStack => exact fun _ => rfl
  | newPromise scope body => exact fun _ => rfl
  | create domain tag payload => exact Run.quiet_create domain tag payload
  | nullOf domain => exact (domain.reads_null).quiet
  | expect value tag description => exact (value.reads_expect tag description).quiet
  | count host => exact fun _ => rfl
  | keep host frame => exact fun _ => rfl
  | kept host => exact fun _ => rfl
  | valueText value => exact (Run.reads_show _).quiet
  | scopeText scope => exact (Run.reads_show _).quiet

end LazyStack
