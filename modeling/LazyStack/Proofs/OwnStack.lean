import LazyStack.Proofs.Growth
import LazyStack.Proofs.Order

/-!
Stacks of one's own. Where hosts work on no stack but that of the frame they are called on, a body leaves
the stack of its caller alone until it hands over its result. So a call of a promise ends well as soon as
the body does, and one that fails leaves the operands of its caller as they were.
-/

namespace LazyStack

/-- An action that writes no stack but one. What it runs, it runs on a frame with that stack. -/
def Action.OnStack (stack : StackId) (action : Action) (state : State) : Prop :=
  match action.frame? with
  | some frame => frame.stack = stack
  | none =>
      ∀ other, other ≠ stack →
        ((action.perform .stopped).after state).operands other = state.operands other

/-- From one state to another no stack changes but one's own and those that there were not before. -/
structure State.SparesStacks (own : StackId → Prop) (before after : State) : Prop where
  size : before.operandStacks.size ≤ after.operandStacks.size
  operands {stack : StackId} : before.HasStack stack → ¬ own stack →
    after.operands stack = before.operands stack

namespace State.SparesStacks

variable {own : StackId → Prop}

theorem refl (state : State) : state.SparesStacks own state :=
  ⟨Nat.le_refl _, fun _ _ => rfl⟩

theorem trans {first middle last : State} (earlier : first.SparesStacks own middle)
    (later : middle.SparesStacks own last) : first.SparesStacks own last where
  size := Nat.le_trans earlier.size later.size
  operands made other := by
    rw [later.operands (Nat.lt_of_lt_of_le made earlier.size) other, earlier.operands made other]

theorem setOperands (state : State) {stack : StackId} (mine : own stack) (values : Operands) :
    state.SparesStacks own (state.setOperands stack values) where
  size := by simp [State.setOperands]
  operands _ other := by
    refine State.operands_setOperands_of_ne state (fun same => ?_) values
    subst same
    exact other mine

end State.SparesStacks

namespace Moment

def HostsOnStack (whole : Moment) : Prop :=
  whole.HostsObey fun frame action state => action.OnStack frame.stack state

def OnFrames (kind : Frame → Prop) (moment : Moment) : Prop :=
  moment.Minds kind fun frame action state => action.OnStack frame.stack state

variable {own : StackId → Prop} {whole part inner moment : Moment}

theorem Enters.sparesStacks {opened : Scope} {inner : Frame} {start : State}
    (enters : moment.Enters opened inner start) (owns : moment.OnFrames fun frame => own frame.stack) :
    moment.state.SparesStacks own start := by
  have opens := enters.opens
  obtain ⟨target, frame, args, returns, calls, others⟩ := enters.operands
  obtain ⟨budget, activity, state⟩ := moment
  dsimp only at calls
  subst calls
  refine ⟨by simp [opens.operandStacks], fun made other => others made fun same => ?_⟩
  subst same
  exact other owns

theorem Makes.sparesStacks {before after : State} (made : moment.Makes before after)
    (owns : moment.OnFrames fun frame => own frame.stack)
    (fresh : ∀ {opened inner start}, moment.Enters opened inner start → own inner.stack) :
    before.SparesStacks own after := by
  cases made with
  | marks => exact ⟨Nat.le_refl _, fun _ _ => rfl⟩
  | promises => exact ⟨Nat.le_refl _, fun _ _ => rfl⟩
  | pushes => exact .setOperands before owns _
  | exchanges => exact .setOperands before owns _
  | enters enters => exact enters.sparesStacks owns
  | leaves _ _ enters => exact .setOperands before (fresh enters) _
  | resolves => exact ⟨Nat.le_refl _, fun _ _ => rfl⟩
  | @acts budget action state final direct ends =>
      obtain ⟨frame, mine, onStack⟩ := owns
      have grown := State.Grows.after ⟨budget, .action action, before⟩
      rw [ends] at grown
      rw [after_action, direct.perform_eq _ .stopped] at ends
      rw [Action.OnStack, show action.frame? = none from direct] at onStack
      refine ⟨grown.operandStacks, fun _ other => ?_⟩
      rw [← ends]
      exact onStack _ fun same => other (same ▸ mine)

theorem onStack_passes {frame next : Frame} {action : Action} {state : State}
    (onStack : action.OnStack frame.stack state) (goesOn : action.frame? = some next) :
    next.stack = frame.stack := by
  rwa [Action.OnStack, goesOn] at onStack

theorem Leads.sparesStacks {before after : State} (onStack : whole.HostsOnStack)
    (owns : whole.OnFrames fun frame => own frame.stack)
    (fresh : ∀ stack : StackId, whole.state.operandStacks.size ≤ stack.index → own stack)
    (leads : whole.Leads before after) : before.SparesStacks own after := by
  have opened {moment opened inner start} (reached : whole.Reaches moment)
      (enters : moment.Enters opened inner start) : own inner.stack := by
    refine fresh _ ?_
    rw [enters.opens.stack]
    exact (State.Grows.of_reaches reached).operandStacks
  have effect : Subrelation whole.Effect (State.SparesStacks own) := by
    rintro before after ⟨moment, reached, made⟩
    refine made.sparesStacks (reached.minds ?_ onStack opened owns) (opened reached)
    exact fun lawful goesOn mine => onStack_passes lawful goesOn ▸ mine
  exact leads.keeps effect State.SparesStacks.refl State.SparesStacks.trans

def Standing (moment : Moment) : Prop :=
  moment.OnFrames fun frame => moment.state.HasStack frame.stack

theorem OnFrames.mono {kind wider : Frame → Prop} (onFrames : moment.OnFrames kind)
    (weaker : ∀ frame, kind frame → wider frame) : moment.OnFrames wider := by
  obtain ⟨budget, activity, state⟩ := moment
  cases activity with
  | call target frame args returns => exact weaker _ onFrames
  | body target frame args returns => exact weaker _ onFrames
  | step frame single => exact weaker _ onFrames
  | steps frame code => exact weaker _ onFrames
  | program actions =>
      obtain ⟨frame, fits, obeys⟩ := onFrames
      exact ⟨frame, weaker _ fits, obeys⟩
  | action single =>
      obtain ⟨frame, fits, lawful⟩ := onFrames
      exact ⟨frame, weaker _ fits, lawful⟩

theorem Enters.standing {opened : Scope} {frame : Frame} {start : State}
    (enters : whole.Enters opened frame start) (starts : whole.Starts part) :
    part.state.HasStack frame.stack := by
  have opens := enters.opens
  have begun : part.state = start := by
    cases enters with
    | closure entered =>
        cases starts with
        | closure again =>
            cases entered.symm.trans again
            rfl
    | promise _ entered =>
        cases starts with
        | promise _ again =>
            cases entered.symm.trans again
            rfl
  rw [begun, State.HasStack, opens.stack, opens.operandStacks]
  exact Nat.lt_succ_self _

theorem Reaches.standing (onStack : whole.HostsOnStack) (standing : whole.Standing)
    (reached : whole.Reaches inner) : inner.Standing := by
  induction reached with
  | here => exact standing
  | inside starts _ ih =>
      refine ih (onStack.part starts) ?_
      have grown := State.Grows.of_starts starts
      refine starts.minds ?_ onStack (fun enters => enters.standing starts)
        (standing.mono fun frame made => grown.hasStack made)
      exact fun lawful goesOn made => onStack_passes lawful goesOn ▸ made

section Promise

variable {budget : Nat} {id : PromiseId} {frame : Frame} {args returns : Option Int} {state final : State}

theorem soleResult_sparesStacks {stack : StackId} (mine : own stack) (failure : Nat → Failure)
    (state : State) : state.SparesStacks own ((soleResult stack failure).after state) := by
  by_cases single : (state.operands stack).length = 1
  · obtain ⟨value, alone⟩ := List.length_eq_one_iff.mp single
    rw [Run.after_of_ok (soleResult_of_one alone)]
    exact .setOperands state mine []
  · rw [Run.after_of_error (soleResult_of_ne_one single failure)]
    exact .refl state

-- The body has its own stack and those that are made after it, and no frame on which it goes on has another.
theorem steps_spare_others {inner : Frame} {code : List Step} {start : State}
    (onStack : HostsOnStack ⟨budget, .steps inner code, start⟩) :
    start.SparesStacks (fun stack => stack = inner.stack ∨ start.operandStacks.size ≤ stack.index)
      (after ⟨budget, .steps inner code, start⟩) :=
  (leads _).sparesStacks onStack (.inl rfl) fun _ => .inr

theorem compute_keeps_operands
    (onStack : HostsOnStack ⟨budget, .body (.promise id) frame args returns, state⟩)
    (pending : (state.promise id).value = none) {stack : StackId} (made : state.HasStack stack) :
    (((state.promise id).compute (.within budget) frame).after state).operands stack =
      state.operands stack := by
  rw [Promise.compute]
  cases outcome : enterPromise (state.promise id).scope frame state with
  | error failure reached =>
      have unchanged := (enterPromise_eq_error outcome).1
      rw [Run.after_of_error (Run.bind_of_error outcome), unchanged]
  | ok inner start =>
      have opens := enterPromise_opens outcome
      have old : start.operands stack = state.operands stack := enterPromise_operands outcome made
      have present : start.HasStack stack := Nat.lt_of_lt_of_le made (by rw [opens.operandStacks]; omega)
      have apart : ¬ (stack = inner.stack ∨ start.operandStacks.size ≤ stack.index) := by
        rw [State.HasStack] at made present
        rintro (same | fresh)
        · rw [same, opens.stack] at made
          exact Nat.lt_irrefl _ made
        · omega
      rw [Run.after_bind_of_ok outcome, ← old]
      cases budget with
      | zero => rfl
      | succ smaller =>
          have spares := steps_spare_others (onStack.part (.promise pending outcome))
          rw [after, Run.after] at spares
          rw [Run.after_bind]
          cases ran : (Machine.within (smaller + 1)).run inner ((state.promise id).body.getD []) start with
          | error failure middle =>
              rw [Activity.run, show executeSteps _ inner _ start = _ from ran] at spares
              exact spares.operands present apart
          | ok result middle =>
              rw [Activity.run, show executeSteps _ inner _ start = _ from ran] at spares
              exact (spares.trans (soleResult_sparesStacks (.inl rfl) _ middle)).operands present apart

theorem promise_body_settles
    (onStack : HostsOnStack ⟨budget, .body (.promise id) frame args returns, state⟩)
    (made : state.HasStack frame.stack)
    (ran : Callable.runBody (.within budget) frame args returns (.promise id) state = .ok () final) :
    (Callable.promise id).Settles frame state final := by
  intro signature declared
  cases declared
  have grown := (State.Grows.after ⟨budget, .body (.promise id) frame args returns, state⟩).hasStack made
  rw [after, Activity.run, Run.after_of_ok ran] at grown
  cases present : (state.promise id).value with
  | some value =>
      rw [Callable.runBody, runPromise_of_value present] at ran
      cases ran
      rw [State.operands_setOperands_self made]
      simp
  | none =>
      have kept := compute_keeps_operands onStack present made
      rw [Callable.runBody, runPromise_of_pending present] at ran
      obtain ⟨value, middle, computed, stored⟩ := Run.bind_eq_ok.mp ran
      rw [Run.after_of_ok computed] at kept
      cases stored
      have still : middle.HasStack frame.stack := by
        simpa [State.HasStack, State.setOperands, State.record, State.resolve] using grown
      have pushed := State.operands_setOperands_self still (value :: middle.operands frame.stack)
      refine (congrArg (fun operands => (operands.length : Int)) pushed).trans ?_
      rw [kept, List.length_cons]
      simp

/-- The calls of promises in a course end well whenever the bodies that they come to do. -/
def PromisesSettle (whole : Moment) : Prop :=
  ∀ ⦃budget id frame args returns state final⦄,
    whole.Reaches ⟨budget, .body (.promise id) frame args returns, state⟩ →
    Callable.runBody (.within budget) frame args returns (.promise id) state = .ok () final →
    (Callable.promise id).Settles frame state final

theorem HostsOnStack.promisesSettle (onStack : whole.HostsOnStack) (standing : whole.Standing) :
    whole.PromisesSettle := by
  intro budget id frame args returns state final reached ran
  exact promise_body_settles (fun _ _ _ _ _ _ _ deeper => onStack (reached.trans deeper))
    (reached.standing onStack standing) ran

end Promise

end Moment

end LazyStack
