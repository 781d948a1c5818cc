import LazyStack.Proofs.Effect

/-!
More budget changes nothing. A run that does not end for want of budget is the same under every larger
budget, since all its parts are.
-/

namespace LazyStack

namespace Run

variable {α β : Type} {run other : Run α} {state : State}

def Wants (run : Run α) (state : State) : Prop :=
  ∃ failure final, run state = .error failure final ∧ failure.kind = .budget

/-- Where the first run does not fail for want of budget, the other is the same. -/
def Extends (run other : Run α) (state : State) : Prop :=
  run.Wants state ∨ run state = other state

theorem extends_refl (run : Run α) (state : State) : run.Extends run state :=
  .inr rfl

theorem Extends.bind {next rest : α → Run β} (first : run.Extends other state)
    (later : ∀ result middle, run state = .ok result middle →
      (next result).Extends (rest result) middle) :
    (run >>= next).Extends (other >>= rest) state := by
  rcases first with ⟨failure, final, failed, wants⟩ | same
  · exact .inl ⟨failure, final, bind_of_error failed, wants⟩
  · cases outcome : run state with
    | error failure final =>
        refine .inr ?_
        rw [bind_of_error outcome, bind_of_error (same ▸ outcome)]
    | ok result middle =>
        rw [Extends, Wants, bind_of_ok outcome, bind_of_ok (same ▸ outcome)]
        exact later result middle outcome

theorem extends_bind (run : Run α) {next rest : α → Run β}
    (later : ∀ result middle, run state = .ok result middle →
      (next result).Extends (rest result) middle) :
    (run >>= next).Extends (run >>= rest) state :=
  (extends_refl run state).bind later

theorem Extends.outcome (first : run.Extends other state) :
    (outcome run).Extends (outcome other) state := by
  rcases first with ⟨failure, final, failed, wants⟩ | same
  · refine .inl ⟨failure, final, ?_, wants⟩
    rw [Run.outcome, failed]
    exact if_pos wants
  · exact .inr (outcome_congr same)

theorem discarded_unit (run : Run Unit) : (do let _ ← run) = run := by
  funext state
  cases outcome : run state with
  | ok result final => exact bind_of_ok outcome
  | error failure final => exact bind_of_error outcome

end Run

theorem Callable.callOnce_extends {first second : Machine} {target : Callable} {frame : Frame}
    {args returns : Option Int} {state : State}
    (body : target.Admits frame args returns state →
      (target.runBody first frame args returns).Extends
        (target.runBody second frame args returns) state) :
    (callOnce first target frame args returns).Extends (callOnce second target frame args returns)
      state := by
  by_cases admitted : target.Admits frame args returns state
  · rw [Run.Extends, Run.Wants, callOnce_of_admits admitted, callOnce_of_admits admitted]
    exact (body admitted).bind fun _ middle _ => Run.extends_refl _ middle
  · obtain ⟨failure, failed⟩ := callOnce_of_not_admits admitted
    exact .inr (by rw [failed, failed])

namespace Moment

section Bodies

variable {budget : Nat} {frame : Frame} {args returns : Option Int} {state : State}

theorem within_extends {inner : Frame} {code : List Step} {start : State}
    (nested : ∀ smaller, budget = smaller + 1 →
      ((Activity.steps inner code).run smaller).Extends ((Activity.steps inner code).run (smaller + 1))
        start) :
    ((Machine.within budget).run inner code).Extends ((Machine.within (budget + 1)).run inner code)
      start := by
  cases budget with
  | zero => exact .inl ⟨.exhausted, start, rfl, rfl⟩
  | succ smaller => exact nested smaller rfl

theorem closure_extends {scope : ScopeId} {code : List Step} {parameters : List String}
    (nested : ∀ part,
      Starts ⟨budget, .body (.closure scope code parameters) frame args returns, state⟩ part →
      (part.activity.run part.budget).Extends (part.activity.run (part.budget + 1)) part.state) :
    (runClosure (.within budget) scope code parameters frame).Extends
      (runClosure (.within (budget + 1)) scope code parameters frame) state := by
  rw [runClosure, runClosure]
  refine Run.extends_bind _ fun inner start entered => ?_
  refine Run.Extends.bind ?_ fun _ middle _ => Run.extends_refl _ middle
  refine within_extends fun smaller same => ?_
  subst same
  exact nested _ (.closure entered)

theorem promise_extends {id : PromiseId}
    (nested : ∀ part, Starts ⟨budget, .body (.promise id) frame args returns, state⟩ part →
      (part.activity.run part.budget).Extends (part.activity.run (part.budget + 1)) part.state) :
    (runPromise (.within budget) id frame).Extends (runPromise (.within (budget + 1)) id frame)
      state := by
  refine Run.Extends.bind (Run.extends_refl _ state) fun reached middle got => ?_
  cases got
  dsimp only
  split
  next => exact Run.extends_refl _ state
  next present =>
    refine Run.Extends.bind ?_ fun _ middle _ => Run.extends_refl _ middle
    rw [Promise.compute, Promise.compute]
    refine Run.extends_bind _ fun inner start entered => ?_
    refine Run.Extends.bind ?_ fun _ middle _ => Run.extends_refl _ middle
    refine within_extends fun smaller same => ?_
    subst same
    exact nested _ (.promise present entered)

theorem force_extends
    (nested : ∀ part, Starts ⟨budget, .body .force frame args returns, state⟩ part →
      (part.activity.run part.budget).Extends (part.activity.run (part.budget + 1)) part.state) :
    (runForce (.within budget) frame).Extends (runForce (.within (budget + 1)) frame) state := by
  rw [runForce, runForce]
  refine Run.extends_bind _ fun argument start popped => ?_
  refine Run.extends_bind _ fun payload reached expected => ?_
  have unchanged := (argument.reads_expect _ _).final_of_ok expected
  subst unchanged
  cases payload with
  | callable target =>
      cases budget with
      | zero => exact .inl ⟨.exhausted, reached, rfl, rfl⟩
      | succ smaller => exact nested _ (.force popped expected)
  | _ => exact Run.extends_refl _ reached

theorem step_extends {step : Step}
    (nested : ∀ part, Starts ⟨budget, .step frame step, state⟩ part →
      (part.activity.run part.budget).Extends (part.activity.run (part.budget + 1)) part.state) :
    (step.execute (Callable.callWithin budget) frame).Extends
      (step.execute (Callable.callWithin (budget + 1)) frame) state := by
  cases step with
  | push value => exact Run.extends_refl _ state
  | note text => exact Run.extends_refl _ state
  | get name =>
      refine Run.extends_bind _ fun binding middle found => ?_
      obtain ⟨bound, unchanged⟩ := ScopeId.lookup_eq_ok found
      subst unchanged
      cases binding with
      | callable target => exact nested _ (.got bound)
      | value value => exact Run.extends_refl _ _
  | call name args returns =>
      refine Run.extends_bind _ fun binding middle found => ?_
      obtain ⟨bound, unchanged⟩ := ScopeId.lookup_eq_ok found
      subst unchanged
      refine Run.extends_bind _ fun target reached resolved => ?_
      have unchanged := (binding.reads_callee name).final_of_ok resolved
      subst unchanged
      exact nested _ (.named bound resolved)

theorem perform_extends {action : Action}
    (performed : (Activity.run budget (.action action)).Extends (Activity.run (budget + 1) (.action action))
      state) :
    (action.perform (.within budget)).Extends (action.perform (.within (budget + 1))) state := by
  by_cases direct : action.Direct
  · rw [direct.perform_eq (.within budget) (.within (budget + 1))]
    exact Run.extends_refl _ state
  · rw [Activity.run, Activity.run] at performed
    cases action with
    | call target frame args returns => rwa [Run.discarded_unit, Run.discarded_unit] at performed
    | run code frame => rwa [Run.discarded_unit, Run.discarded_unit] at performed
    | _ => exact absurd rfl direct

theorem action_extends {action : Action}
    (nested : ∀ part, Starts ⟨budget, .action action, state⟩ part →
      (part.activity.run part.budget).Extends (part.activity.run (part.budget + 1)) part.state) :
    (Activity.run budget (.action action)).Extends
      (Activity.run (budget + 1) (.action action)) state := by
  rw [Activity.run, Activity.run]
  refine Run.Extends.bind ?_ fun _ middle _ => Run.extends_refl _ middle
  by_cases direct : action.Direct
  · rw [direct.perform_eq (.within budget) (.within (budget + 1))]
    exact Run.extends_refl _ state
  · cases action with
    | call target frame args returns =>
        cases budget with
        | zero => exact .inl ⟨.exhausted, state, rfl, rfl⟩
        | succ smaller => exact nested _ .asked
    | run code frame =>
        refine within_extends fun smaller same => ?_
        subst same
        exact nested _ .ran
    | _ => exact absurd rfl direct

end Bodies

theorem run_extends (whole : Moment) :
    (whole.activity.run whole.budget).Extends (whole.activity.run (whole.budget + 1)) whole.state := by
  induction whole using Moment.induction with
  | whole whole ih =>
  obtain ⟨budget, activity, state⟩ := whole
  cases activity with
  | call target frame args returns =>
      rw [Activity.run, Activity.run, Callable.callWithin_eq, Callable.callWithin_eq]
      exact Callable.callOnce_extends fun admitted => ih _ (.body admitted)
  | body target frame args returns =>
      cases target with
      | closure scope code parameters => exact closure_extends ih
      | promise id => exact promise_extends ih
      | force => exact force_extends ih
      | host id header =>
          exact ih ⟨budget, .program (state.hostBody id frame args returns), state⟩ .host
      | _ => exact Run.extends_refl _ state
  | step frame step => exact step_extends ih
  | steps frame code =>
      cases code with
      | nil => exact Run.extends_refl _ state
      | cons step rest =>
          exact Run.Extends.bind (ih _ .first) fun _ middle executed => ih _ (.rest executed)
  | program actions =>
      cases actions with
      | done result => exact Run.extends_refl _ state
      | fail failure => exact Run.extends_refl _ state
      | act action next =>
          exact (perform_extends (ih _ .acts)).bind fun _ _ performed => ih _ (.next performed)
      | attempt action next =>
          exact (perform_extends (ih _ .attempts)).outcome.bind fun _ _ attempted =>
            ih _ (.goesOn attempted)
  | action action => exact action_extends ih

/-- A run that does not fail for want of budget is the same under every larger budget. -/
theorem run_of_le {budget larger : Nat} {activity : Activity} {state : State} (enough : budget ≤ larger)
    (complete : ¬ (activity.run budget).Wants state) :
    activity.run larger state = activity.run budget state := by
  induction enough with
  | refl => rfl
  | @step larger _ ih =>
      rcases run_extends ⟨larger, activity, state⟩ with wants | same
      · rw [Run.Wants, ih] at wants
        exact absurd wants complete
      · exact same.symm.trans ih

end Moment

end LazyStack
