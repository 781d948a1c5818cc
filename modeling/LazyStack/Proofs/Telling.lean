import LazyStack.Proofs.ParameterList
import LazyStack.Proofs.Quiet
import LazyStack.Proofs.Reentry

/-!
What there is to tell. Of a body of `closure` that has made a closure this is told, and of a body of a promise that
has stored a value, once it is over. The log of a run goes on with what is told of its history, moment by moment.
-/

namespace LazyStack

namespace Moment

/-- What there is to tell of a moment that is over: that `closure` has made a closure, or that a promise has been
resolved that had no value before. -/
def told (moment : Moment) : Option Event :=
  match moment.activity with
  | .body (.makeClosure _) frame _ _ =>
      match moment.activity.run moment.budget moment.state with
      | .ok _ final => ((final.operands frame.stack).head?.bind Value.parameters?).map .closureCreated
      | .error _ _ => none
  | .body (.promise id) _ _ _ =>
      match moment.activity.run moment.budget moment.state, (moment.state.promise id).value with
      | .ok _ final, none => (final.promise id).value.map fun value => .promiseResolved id (final.valueText value)
      | _, _ => none
  | _ => none

section Told

variable {budget : Nat} {frame : Frame} {args returns : Option Int} {state : State}

/-- A moment tells what it adds to the log once its parts are over. -/
def Tells (moment : Moment) (reached : State) : Prop :=
  moment.after.log.toList = reached.log.toList ++ moment.told.toList

theorem tells_of_same {moment : Moment} {reached : State} (none : moment.told = none)
    (same : moment.after.log = reached.log) : moment.Tells reached := by
  rw [Tells, none, same]
  exact (List.append_nil _).symm

theorem told_makeClosure (budget : Nat) {domain : DomainId} (args returns : Option Int) {final : State}
    (ran : runMakeClosure domain frame state = .ok () final) :
    ∃ code parameters identity rest, final.operands frame.stack =
        ⟨domain, .callable, .callable (.closure frame.scope code parameters), identity⟩ :: rest ∧
      told ⟨budget, .body (.makeClosure domain) frame args returns, state⟩ = some (.closureCreated parameters) ∧
      final.log = state.log.push (.closureCreated parameters) := by
  rcases runMakeClosure_cases domain frame state with
    ⟨failure, final, failed, same⟩ | ⟨quoted, list, rest, parameters, operands, _, pushes⟩
  · cases failed.symm.trans ran
  · have made : state.HasStack frame.stack := State.hasStack_of_operands (by simp [operands])
    obtain ⟨⟨identity, pushed⟩, logged⟩ :=
      pushClosure_eq_ok (pushes.symm.trans ran) (State.hasStack_setOperands.mpr made)
    have body : (Activity.body (.makeClosure domain) frame args returns).run budget state = .ok () final := ran
    refine ⟨_, parameters, identity, _, pushed, ?_, logged⟩
    rw [told, body]
    simp only [pushed]
    rfl

theorem tells_makeClosure {domain : DomainId}
    (registered : ((state.domain domain).names.get? .callable).isSome) :
    Tells ⟨budget, .body (.makeClosure domain) frame args returns, state⟩ state := by
  have failing {failure : Failure} {final : State}
      (failed : (Activity.body (.makeClosure domain) frame args returns).run budget state = .error failure final)
      (same : final.log = state.log) :
      Tells ⟨budget, .body (.makeClosure domain) frame args returns, state⟩ state := by
    refine tells_of_same ?_ ?_
    · rw [told, failed]
    · rw [after, Run.after_of_error failed, same]
  rcases runMakeClosure_cases domain frame state with
    ⟨failure, final, failed, same⟩ | ⟨quoted, list, rest, parameters, operands, _, pushes⟩
  · exact failing failed same
  · have made : state.HasStack frame.stack := State.hasStack_of_operands (by simp [operands])
    have known : (((state.setOperands frame.stack rest).domain domain).names.get? .callable).isSome := registered
    obtain ⟨_, final, pushed, _⟩ :=
      pushClosure_of_registered known (State.hasStack_setOperands.mpr made) parameters quoted.payload.steps
    have ran : runMakeClosure domain frame state = .ok () final := pushes.trans pushed
    obtain ⟨_, _, _, _, _, same, logged⟩ := told_makeClosure budget args returns ran
    have body : (Activity.body (.makeClosure domain) frame args returns).run budget state = .ok () final := ran
    rw [Tells, same, after, Run.after_of_ok body, logged]
    exact Array.toList_push

theorem Computes.tells {id : PromiseId} {moment : Moment} {value : Value} {middle : State}
    (computes : moment.Computes id value middle) :
    moment.told = some (.promiseResolved id (moment.after.valueText value)) ∧ moment.Tells middle := by
  have stored := computes.stored
  cases computes with
  | @pending budget frame args returns state _ _ pending computed =>
      let resolved := middle.resolve id value
      let recorded := resolved.record (.promiseResolved id (resolved.valueText value))
      let final := recorded.setOperands frame.stack (value :: recorded.operands frame.stack)
      have ran : (Activity.body (.promise id) frame args returns).run budget state = .ok () final := by
        rw [Activity.run, Callable.runBody, runPromise_of_pending pending, Run.bind_of_ok computed]
        rfl
      have text : final.valueText = resolved.valueText := State.valueText_of_same rfl rfl
      rw [after, Run.after_of_ok ran] at stored ⊢
      have told : told ⟨budget, .body (.promise id) frame args returns, state⟩ =
          some (.promiseResolved id (final.valueText value)) := by
        rw [told, ran]
        simp only [pending, stored, Option.map_some]
      refine ⟨told, ?_⟩
      rw [Tells, told, after, Run.after_of_ok ran, text]
      exact Array.toList_push

theorem completes_of_told {id : PromiseId} {moment : Moment} {text : Written String}
    (tells : moment.told = some (.promiseResolved id text)) : moment.Completes id := by
  obtain ⟨budget, activity, state⟩ := moment
  unfold told at tells
  split at tells
  · split at tells
    · obtain ⟨_, _, impossible⟩ := Option.map_eq_some_iff.mp tells
      cases impossible
    · cases tells
  next other frame args returns active =>
    dsimp only at active
    subst active
    split at tells
    next ran pending =>
      obtain ⟨value, _, same⟩ := Option.map_eq_some_iff.mp tells
      cases same
      obtain ⟨_, _, _, present | ⟨middle, computes⟩⟩ := body_promise_ran ran
      · cases pending.symm.trans present
      · exact ⟨_, middle, computes⟩
    · cases tells
  · cases tells

end Told

/-- Each `closure` that comes up belongs to a domain that registers callables. -/
def RegistersCallables (whole : Moment) : Prop :=
  ∀ ⦃budget domain frame args returns state⦄,
    whole.Reaches ⟨budget, .body (.makeClosure domain) frame args returns, state⟩ →
    ((state.domain domain).names.get? .callable).isSome

variable {whole inner first second : Moment}

theorem RegistersCallables.part (registers : whole.RegistersCallables) (starts : whole.Starts inner) :
    inner.RegistersCallables :=
  fun _ _ _ _ _ _ reached => registers (.inside starts reached)

-- Without any budget the body of a call is entered, and fails at once.
theorem tells_closure {budget : Nat} {scope : ScopeId} {code : List Step} {parameters : List String}
    {frame : Frame} {args returns : Option Int} {state : State}
    (none : ∀ part, ¬ Starts ⟨budget, .body (.closure scope code parameters) frame args returns, state⟩ part) :
    Tells ⟨budget, .body (.closure scope code parameters) frame args returns, state⟩ state := by
  refine tells_of_same rfl ?_
  rw [after, Activity.run, Callable.runBody, runClosure]
  cases entered : enterClosure scope parameters frame state with
  | error failure final =>
      rw [Run.after_of_error (Run.bind_of_error entered)]
      exact (quiet_enterClosure scope parameters frame).of_error entered
  | ok inner start =>
      cases budget with
      | zero =>
          rw [Run.after_bind_of_ok entered]
          exact (quiet_enterClosure scope parameters frame).of_ok entered
      | succ budget => exact absurd (.closure entered) (none _)

theorem told_promise_of_error {budget : Nat} {id : PromiseId} {frame : Frame} {args returns : Option Int}
    {state final : State} {failure : Failure}
    (failed : (Activity.body (.promise id) frame args returns).run budget state = .error failure final) :
    told ⟨budget, .body (.promise id) frame args returns, state⟩ = none := by
  rw [told, failed]

theorem tells_promise {budget : Nat} {id : PromiseId} {frame : Frame} {args returns : Option Int} {state : State}
    (none : ∀ part, ¬ Starts ⟨budget, .body (.promise id) frame args returns, state⟩ part) :
    Tells ⟨budget, .body (.promise id) frame args returns, state⟩ state := by
  cases present : (state.promise id).value with
  | some value =>
      have ran : (Activity.body (.promise id) frame args returns).run budget state =
          frame.stack.push value state := runPromise_of_value present
      refine tells_of_same ?_ ?_
      · simp only [told, ran, StackId.push_apply, present]
      · rw [after, Run.after, ran]
        rfl
  | none =>
      have failing {failure : Failure} {final : State}
          (failed : (state.promise id).compute (.within budget) frame state = .error failure final)
          (same : final.log = state.log) :
          Tells ⟨budget, .body (.promise id) frame args returns, state⟩ state := by
        have ran : (Activity.body (.promise id) frame args returns).run budget state = .error failure final :=
          (runPromise_of_pending present).trans (Run.bind_of_error failed)
        refine tells_of_same (told_promise_of_error ran) ?_
        rw [after, Run.after_of_error ran, same]
      cases entered : enterPromise (state.promise id).scope frame state with
      | error failure final =>
          exact failing (Run.bind_of_error entered) ((quiet_enterPromise _ frame).of_error entered)
      | ok inner start =>
          cases budget with
          | zero => exact failing (Run.bind_of_ok entered) ((quiet_enterPromise _ frame).of_ok entered)
          | succ budget => exact absurd (.promise present entered) (none _)

theorem tells_alone (none : ∀ part, ¬ whole.Starts part) (registers : whole.RegistersCallables) :
    whole.Tells whole.state := by
  obtain ⟨budget, activity, state⟩ := whole
  cases activity with
  | call target frame args returns =>
      have rejected : ¬ target.Admits frame args returns state := fun admitted => none _ (.body admitted)
      refine tells_of_same rfl ?_
      rw [after_call_of_not_admits rejected]
  | body target frame args returns =>
      cases target with
      | closure scope code parameters => exact tells_closure none
      | promise id => exact tells_promise none
      | makeClosure domain => exact tells_makeClosure (registers (.here _))
      | delay => exact tells_of_same rfl (Run.Quiet.compositionalOn frame.stack).delay
      | force =>
          refine tells_of_same rfl ?_
          exact (Run.Quiet.compositionalOn frame.stack).force (fun _ _ => rfl)
            fun part starts => absurd starts (none part)
      | isPromise => exact tells_of_same rfl (Run.Quiet.compositionalOn frame.stack).isPromise
      | host id header => exact absurd .host (none _)
  | step frame step =>
      refine tells_of_same rfl ?_
      exact (Run.Quiet.compositionalOn frame.stack).step (fun value => Run.quiet_push _ value state)
        fun part starts => absurd starts (none part)
  | steps frame code =>
      cases code with
      | nil => exact tells_of_same rfl rfl
      | cons step rest => exact absurd .first (none _)
  | program actions =>
      cases actions with
      | done result => exact tells_of_same rfl rfl
      | fail failure => exact tells_of_same rfl rfl
      | act action next => exact absurd .acts (none _)
      | attempt action next => exact absurd .attempts (none _)
  | action action =>
      by_cases direct : action.Direct
      · refine tells_of_same rfl ?_
        rw [after_action]
        exact direct.quiet _ state
      · refine tells_of_same rfl ?_
        rw [after_action]
        cases action with
        | call target frame args returns =>
            cases budget with
            | zero => rfl
            | succ budget => exact absurd .asked (none _)
        | run code frame =>
            cases budget with
            | zero => rfl
            | succ budget => exact absurd .ran (none _)
        | _ => exact absurd rfl direct

theorem Starts.log_eq (starts : whole.Starts inner) (single : ∀ other, whole.Starts other → other = inner) :
    inner.state.log = whole.state.log := by
  have alone {earlier : Moment} (continues : whole.Continues earlier inner) : False :=
    continues.ne (single _ continues.starts_first)
  cases starts with
  | closure entered => exact (quiet_enterClosure _ _ _).of_ok entered
  | promise pending entered => exact (quiet_enterPromise _ _).of_ok entered
  | force popped expected => exact (Run.quiet_pop _).of_ok popped
  | rest executed => exact (alone (.rest executed)).elim
  | next performed => exact (alone (.next performed)).elim
  | goesOn attempted => exact (alone (.goesOn attempted)).elim
  | _ => rfl

theorem Starts.tells_promise {budget : Nat} {id : PromiseId} {frame opened : Frame} {args returns : Option Int}
    {state start : State} (pending : (state.promise id).value = none)
    (entered : enterPromise (state.promise id).scope frame state = .ok opened start) :
    Tells ⟨budget + 1, .body (.promise id) frame args returns, state⟩
      (after ⟨budget, .steps opened ((state.promise id).body.getD []), start⟩) := by
  have same : (((state.promise id).compute (.within (budget + 1)) frame).after state).log =
      (after ⟨budget, .steps opened ((state.promise id).body.getD []), start⟩).log := by
    rw [Promise.compute, Run.after_bind_of_ok entered]
    exact Run.log_bind fun _ middle _ => Run.quiet_soleResult _ _ middle
  cases computed : (state.promise id).compute (.within (budget + 1)) frame state with
  | error failure final =>
      have ran : (Activity.body (.promise id) frame args returns).run (budget + 1) state = .error failure final :=
        (runPromise_of_pending pending).trans (Run.bind_of_error computed)
      rw [Run.after_of_error computed] at same
      refine tells_of_same (told_promise_of_error ran) ?_
      rw [after, Run.after_of_error ran, same]
  | ok value middle =>
      rw [Run.after_of_ok computed] at same
      have tells : Tells ⟨budget + 1, .body (.promise id) frame args returns, state⟩ middle :=
        (Computes.tells (.pending pending computed)).2
      rw [Tells, same] at tells
      exact tells

theorem Starts.tells (starts : whole.Starts inner) (last : ∀ later, ¬ whole.Continues inner later) :
    whole.Tells inner.after := by
  cases starts with
  | body admitted =>
      refine tells_of_same rfl ?_
      rw [after_call_of_admits admitted]
  | closure entered =>
      refine tells_of_same rfl ?_
      rw [after, Activity.run, Callable.runBody, runClosure, Run.after_bind_of_ok entered]
      exact Run.log_bind fun _ middle _ => (Run.quiet_soleResult _ _).bind (fun _ => Run.quiet_push _ _) middle
  | promise pending entered => exact Starts.tells_promise pending entered
  | force popped expected =>
      refine tells_of_same rfl ?_
      rw [after, Activity.run, Callable.runBody, runForce, Run.after_bind_of_ok popped,
        Run.after_bind_of_ok expected]
      rfl
  | host => exact tells_of_same rfl rfl
  | got bound =>
      refine tells_of_same rfl ?_
      rw [after, after, Activity.run, Activity.run, Step.execute, Run.after_bind, ScopeId.lookup_apply, bound]
  | named bound resolved =>
      refine tells_of_same rfl ?_
      rw [after, after, Activity.run, Activity.run, Step.execute, Run.after_bind, ScopeId.lookup_apply, bound]
      dsimp only
      rw [Run.after_bind_of_ok resolved]
  | @first budget frame step rest state =>
      refine tells_of_same rfl ?_
      cases executed : step.execute (Callable.callWithin budget) frame state with
      | ok result middle => exact absurd (.rest executed) (last _)
      | error failure middle =>
          rw [after, after, Activity.run, Activity.run, executeSteps,
            Run.after_of_error (Run.bind_of_error executed), Run.after_of_error executed]
  | rest executed =>
      refine tells_of_same rfl ?_
      rw [after, after, Activity.run, Activity.run, executeSteps, Run.after_bind_of_ok executed]
  | asked =>
      refine tells_of_same rfl ?_
      rw [after_action]
      rfl
  | ran =>
      refine tells_of_same rfl ?_
      rw [after_action]
      rfl
  | @acts budget action next state =>
      refine tells_of_same rfl ?_
      rw [after_action]
      cases performed : action.perform (.within budget) state with
      | ok reply middle => exact absurd (.next performed) (last _)
      | error failure middle =>
          rw [after, Activity.run, Program.run, Run.after_of_error (Run.bind_of_error performed),
            Run.after_of_error performed]
  | @attempts budget action next state =>
      refine tells_of_same rfl ?_
      rw [after_action, ← Run.after_outcome]
      cases attempted : Run.outcome (action.perform (.within budget)) state with
      | ok outcome middle => exact absurd (.goesOn attempted) (last _)
      | error failure middle =>
          rw [after, Activity.run, Program.run, Run.after_of_error (Run.bind_of_error attempted),
            Run.after_of_error attempted]
  | next performed =>
      refine tells_of_same rfl ?_
      rw [after, after, Activity.run, Activity.run, Program.run, Run.after_bind_of_ok performed]
  | goesOn attempted =>
      refine tells_of_same rfl ?_
      rw [after, after, Activity.run, Activity.run, Program.run, Run.after_bind_of_ok attempted]

theorem toList_told (whole : Moment) : whole.told.toList = [whole].filterMap told := by
  rw [List.filterMap_cons]
  cases whole.told <;> rfl

/-- The log goes on with what is told of the history of a moment, in its order. -/
theorem History.log {history : List Moment} (lists : whole.History history)
    (registers : whole.RegistersCallables) :
    whole.after.log.toList = whole.state.log.toList ++ history.filterMap told := by
  induction lists with
  | alone none =>
      rw [tells_alone none registers, toList_told]
  | @single whole part inner starts only _ ih =>
      have last (later : Moment) : ¬ whole.Continues part later := fun continues =>
        continues.ne (only _ continues.starts_second).symm
      rw [starts.tells last, ih (registers.part starts), starts.log_eq only, toList_told, List.filterMap_append,
        List.append_assoc]
  | @pair whole first second earlier later continues _ _ ihFirst ihSecond =>
      have last (further : Moment) : ¬ whole.Continues second further := fun again =>
        continues.ne (continues.unique again).1
      have begins : first.state = whole.state := by cases continues <;> rfl
      rw [continues.starts_second.tells last, ihSecond (registers.part continues.starts_second),
        continues.meets, ihFirst (registers.part continues.starts_first), begins, toList_told,
        List.filterMap_append, List.filterMap_append, List.append_assoc, List.append_assoc, List.append_assoc]

end Moment

end LazyStack
