import Mathlib.Logic.Relation
import LazyStack.Proofs.Conduct

/-!
What a moment does by itself. `Makes` names each elementary change of the state that a moment can make
apart from its parts. A moment goes from its state to the state in which it ends by such changes and by
what its parts do, so a relation that holds across both holds, step by step, across the moment.
-/

namespace LazyStack

namespace Moment

/-- A body of a promise computes a value. -/
inductive Computes (id : PromiseId) : Moment → Value → State → Prop
  | pending {budget frame args returns state value middle} :
      (state.promise id).value = none →
      (state.promise id).compute (.within budget) frame state = .ok value middle →
      Computes id ⟨budget, .body (.promise id) frame args returns, state⟩ value middle

/-- What a moment does to the state by itself, apart from what its parts do. -/
inductive Makes : Moment → State → State → Prop
  | marks {moment} (reached : State) (memories : Array Memory) (log : Array Event) (nextIdentity : Nat) :
      Makes moment reached { reached with
        hostMemories := memories, log := log, nextIdentity := nextIdentity }
  | promises {moment} (reached : State) (scope : ScopeId) (body : List Step) :
      Makes moment reached { reached with promises := reached.promises.push (.pending scope body) }
  | pushes {budget frame step state} (reached : State) (values : Operands) :
      Makes ⟨budget, .step frame step, state⟩ reached (reached.setOperands frame.stack values)
  | exchanges {budget target frame args returns state} (reached : State) (values : Operands) :
      Makes ⟨budget, .body target frame args returns, state⟩ reached
        (reached.setOperands frame.stack values)
  | enters {moment opened inner start} :
      Enters moment opened inner start → Makes moment moment.state start
  | leaves {moment opened inner start} (reached : State) (values : Operands) :
      Enters moment opened inner start → Makes moment reached (reached.setOperands inner.stack values)
  | resolves {moment id value middle} :
      Computes id moment value middle → Makes moment middle (middle.resolve id value)
  | acts {budget action state final} :
      action.Direct →
      after ⟨budget, .action action, state⟩ = final →
      Makes ⟨budget, .action action, state⟩ state final

end Moment

namespace Run

variable {α β : Type} {effect : State → State → Prop} {run : Run α} {next : α → Run β} {state : State}

def Follows (effect : State → State → Prop) (run : Run α) (state : State) : Prop :=
  Relation.ReflTransGen effect state (run.after state)

theorem follows_of_reads (reads : Reads run) : Follows effect run state := by
  rw [Follows, reads state]

theorem follows_rest
    (rest : ∀ result middle, run state = .ok result middle → Follows effect (next result) middle) :
    Relation.ReflTransGen effect (run.after state) ((run >>= next).after state) := by
  rw [after_bind, after]
  cases outcome : run state with
  | ok result middle => exact rest result middle outcome
  | error failure middle => exact .refl

theorem Follows.bind (first : Follows effect run state)
    (rest : ∀ result middle, run state = .ok result middle → Follows effect (next result) middle) :
    Follows effect (run >>= next) state :=
  first.trans (follows_rest rest)

theorem Follows.compositional : Compositional (Follows effect) where
  bind := Follows.bind
  pure _ _ := .refl
  refuse _ _ _ := .refl
  refuseShowing _ _ _ _ := .refl
  null domain _ := follows_of_reads domain.reads_null
  typeName domain tag _ := follows_of_reads (domain.reads_typeName tag)
  lookup scope name _ := follows_of_reads (scope.reads_lookup name)

theorem Follows.of_ok (follows : Follows effect run state) {result : α} {final : State}
    (ran : run state = .ok result final) : Relation.ReflTransGen effect state final := by
  rw [← after_of_ok ran]
  exact follows

section Stack

variable {stack : StackId}
  (operates : ∀ reached values, effect reached (reached.setOperands stack values))
include operates

theorem follows_push (value : Value) : Follows effect (stack.push value) state :=
  .single (operates state _)

theorem follows_pop : Follows effect stack.pop state := by
  cases present : state.operands stack with
  | nil =>
      rw [Follows, after_of_error (stack.pop_of_nil state present)]
  | cons value rest =>
      rw [Follows, after_of_ok (stack.pop_of_cons state present)]
      exact .single (operates state rest)

theorem follows_soleResult (failure : Nat → Failure) :
    Follows effect (soleResult stack failure) state := by
  rw [soleResult]
  refine Follows.bind (follows_of_reads fun _ => rfl) fun count middle _ => ?_
  split
  · exact follows_pop operates
  · exact follows_of_reads (reads_throw _)

end Stack

section Marks

variable (marks : ∀ reached memories log nextIdentity, effect reached
  { reached with hostMemories := memories, log := log, nextIdentity := nextIdentity })
include marks

theorem follows_record (event : Event) : Follows effect (record event) state :=
  .single (marks state state.hostMemories (state.log.push event) state.nextIdentity)

theorem follows_create (domain : DomainId) (tag : Tag) (payload : Payload) :
    Follows effect (domain.create tag payload) state := by
  rw [DomainId.create]
  refine Follows.bind (follows_of_reads (domain.reads_typeName tag)) fun name middle _ => ?_
  split
  · exact .single (marks middle middle.hostMemories middle.log (middle.nextIdentity + 1))
  · exact follows_of_reads (reads_get.bind fun _ => reads_throw _)

end Marks

end Run

namespace Moment

variable {relation : State → State → Prop}

section Bodies

variable {budget : Nat} {target : Callable} {frame : Frame} {args returns : Option Int} {state : State}

theorem follows_compositionalOn
    (own : Subrelation (Makes ⟨budget, .body target frame args returns, state⟩) relation) :
    Run.CompositionalOn frame.stack (Run.Follows relation) where
  toCompositional := Run.Follows.compositional
  pop _ := Run.follows_pop fun reached values => own (.exchanges reached values)
  push value _ := Run.follows_push (fun reached values => own (.exchanges reached values)) value
  create domain tag payload _ := by
    refine Run.follows_create (fun reached counts log identity => ?_) domain tag payload
    exact own (.marks reached counts log identity)
  newPromise _ _ reached := .single (own (.promises reached _ _))

theorem follows_closureResult {scope : ScopeId} {code : List Step} {parameters : List String}
    {inner : Frame} {start : State}
    (own : Subrelation (Makes
      ⟨budget, .body (.closure scope code parameters) frame args returns, state⟩) relation)
    (entered : enterClosure scope parameters frame state = .ok inner start) (middle : State) :
    Run.Follows relation
      (soleResult inner.stack .closureResults >>= fun result => frame.stack.push result) middle := by
  have leaves := fun reached values => own (.leaves reached values (.closure entered))
  exact (Run.follows_soleResult leaves _).bind fun result _ _ =>
    Run.follows_push (fun reached values => own (.exchanges reached values)) result

theorem follows_promiseResult {id : PromiseId} {inner : Frame} {start : State}
    (own : Subrelation (Makes ⟨budget, .body (.promise id) frame args returns, state⟩) relation)
    (pending : (state.promise id).value = none)
    (entered : enterPromise (state.promise id).scope frame state = .ok inner start) (middle : State) :
    Run.Follows relation (soleResult inner.stack .promiseResults) middle :=
  Run.follows_soleResult (fun reached values => own (.leaves reached values (.promise pending entered))) _

theorem follows_store {id : PromiseId} {value : Value} {middle : State}
    (own : Subrelation (Makes ⟨budget, .body (.promise id) frame args returns, state⟩) relation)
    (computes : Computes id ⟨budget, .body (.promise id) frame args returns, state⟩ value middle) :
    Run.Follows relation
      (do modify fun state => state.resolve id value
          Run.record (.promiseResolved id ((← get).valueText value))
          frame.stack.push value) middle := by
  refine Run.Follows.bind (.single (own (.resolves computes))) fun _ _ _ => ?_
  refine (Run.follows_of_reads Run.reads_get).bind fun _ _ _ => ?_
  refine (Run.follows_record (fun reached counts log identity =>
    own (.marks reached counts log identity)) _).bind fun _ _ _ => ?_
  exact Run.follows_push (fun reached values => own (.exchanges reached values)) value

end Bodies

section Parts

variable {whole part : Moment} (own : Subrelation whole.Makes relation)
  (nested : ∀ inner, whole.Starts inner → Relation.ReflTransGen relation inner.state inner.after)
include own nested

theorem Starts.follows_in (starts : whole.Starts part) :
    Relation.ReflTransGen relation whole.state part.state := by
  cases starts with
  | body admitted => exact .refl
  | closure entered => exact .single (own (.enters (.closure entered)))
  | promise pending entered => exact .single (own (.enters (.promise pending entered)))
  | force popped expected =>
      exact (Run.follows_pop fun reached values => own (.exchanges reached values)).of_ok popped
  | host => exact .refl
  | got bound => exact .refl
  | named bound resolved => exact .refl
  | first => exact .refl
  | rest executed =>
      have kept := nested _ .first
      rw [after, Activity.run, Run.after_of_ok executed] at kept
      exact kept
  | asked => exact .refl
  | ran => exact .refl
  | acts => exact .refl
  | attempts => exact .refl
  | next performed =>
      have kept := nested _ .acts
      rw [after_action, Run.after_of_ok performed] at kept
      exact kept
  | goesOn attempted =>
      have kept := nested _ .attempts
      rw [after_action, ← Run.after_outcome, Run.after_of_ok attempted] at kept
      exact kept

theorem Starts.follows_out (starts : whole.Starts part) :
    Relation.ReflTransGen relation part.after whole.after := by
  cases starts with
  | body admitted =>
      rw [after_call_of_admits admitted]
  | closure entered =>
      rw [after, after, Activity.run, Activity.run, Callable.runBody, runClosure,
        Run.after_bind_of_ok entered]
      exact Run.follows_rest fun _ middle _ => follows_closureResult own entered middle
  | promise pending entered =>
      rw [after, after, Activity.run, Activity.run, Callable.runBody, Run.after,
        Run.after, runPromise_of_pending pending, ← Run.after, ← Run.after]
      refine Relation.ReflTransGen.trans ?_
        (Run.follows_rest fun value middle computed => follows_store own (.pending pending computed))
      rw [Promise.compute, Run.after_bind_of_ok entered]
      exact Run.follows_rest fun _ middle _ => follows_promiseResult own pending entered middle
  | force popped expected =>
      rw [after, after, Activity.run, Activity.run, Callable.runBody, runForce,
        Run.after_bind_of_ok popped, Run.after_bind_of_ok expected]
      exact .refl
  | host => exact .refl
  | got bound =>
      rw [after, after, Activity.run, Activity.run, Step.execute, Run.after_bind, ScopeId.lookup_apply,
        bound]
  | named bound resolved =>
      rw [after, after, Activity.run, Activity.run, Step.execute, Run.after_bind, ScopeId.lookup_apply,
        bound]
      dsimp only
      rw [Run.after_bind_of_ok resolved]
  | first => exact Run.follows_rest fun _ middle executed => nested _ (.rest executed)
  | rest executed =>
      rw [after, after, Activity.run, Activity.run, executeSteps, Run.after_bind_of_ok executed]
  | asked =>
      rw [after_action]
      exact .refl
  | ran =>
      rw [after_action]
      exact .refl
  | acts =>
      rw [after_action]
      exact Run.follows_rest fun _ middle performed => nested _ (.next performed)
  | attempts =>
      rw [after_action, ← Run.after_outcome]
      exact Run.follows_rest fun _ middle attempted => nested _ (.goesOn attempted)
  | next performed =>
      rw [after, after, Activity.run, Activity.run, Program.run, Run.after_bind_of_ok performed]
  | goesOn attempted =>
      rw [after, after, Activity.run, Activity.run, Program.run, Run.after_bind_of_ok attempted]

theorem Starts.follows (starts : whole.Starts part) :
    Relation.ReflTransGen relation whole.state whole.after :=
  ((starts.follows_in own nested).trans (nested part starts)).trans (starts.follows_out own nested)

-- Without any budget a body fails as soon as it is entered.
theorem Enters.follows_out {opened : Scope} {inner : Frame} {start : State}
    (enters : whole.Enters opened inner start) : Relation.ReflTransGen relation start whole.after := by
  cases enters with
  | @closure budget scope code parameters frame args returns state inner start entered =>
      cases budget with
      | zero =>
          rw [after, Activity.run, Callable.runBody, runClosure, Run.after_bind_of_ok entered]
          exact .refl
      | succ smaller =>
          exact (nested _ (.closure entered)).trans (Starts.follows_out own nested (.closure entered))
  | @promise budget id frame args returns state inner start pending entered =>
      cases budget with
      | zero =>
          have failed : (state.promise id).compute (.within 0) frame state =
              .error .exhausted start := by
            rw [Promise.compute, Run.bind_of_ok entered]
            rfl
          rw [after, Activity.run, Callable.runBody, Run.after, runPromise_of_pending pending,
            ← Run.after, Run.after_of_error (Run.bind_of_error failed)]
      | succ smaller =>
          exact (nested _ (.promise pending entered)).trans
            (Starts.follows_out own nested (.promise pending entered))

theorem Enters.follows {opened : Scope} {inner : Frame} {start : State}
    (enters : whole.Enters opened inner start) :
    Relation.ReflTransGen relation whole.state whole.after :=
  .head (own (.enters enters)) (enters.follows_out own nested)

theorem follows_closure {budget : Nat} {scope : ScopeId} {code : List Step} {parameters : List String}
    {frame : Frame} {args returns : Option Int} {state : State}
    (same : whole = ⟨budget, .body (.closure scope code parameters) frame args returns, state⟩) :
    Relation.ReflTransGen relation whole.state whole.after := by
  subst same
  cases outcome : enterClosure scope parameters frame state with
  | error failure final =>
      have unchanged := (enterClosure_eq_error outcome).1
      subst unchanged
      rw [after, Activity.run, Callable.runBody, runClosure,
        Run.after_of_error (Run.bind_of_error outcome)]
  | ok inner start => exact Enters.follows own nested (.closure outcome)

theorem follows_promise {budget : Nat} {id : PromiseId} {frame : Frame} {args returns : Option Int}
    {state : State} (same : whole = ⟨budget, .body (.promise id) frame args returns, state⟩) :
    Relation.ReflTransGen relation whole.state whole.after := by
  subst same
  cases present : (state.promise id).value with
  | some value =>
      rw [after, Activity.run, Callable.runBody, Run.after, runPromise_of_value present, ← Run.after]
      exact Run.follows_push (fun reached values => own (.exchanges reached values)) value
  | none =>
      cases outcome : enterPromise (state.promise id).scope frame state with
      | error failure final =>
          have failed : (state.promise id).compute (.within budget) frame state =
              .error failure final := Run.bind_of_error outcome
          obtain ⟨rfl, -⟩ := enterPromise_eq_error outcome
          rw [after, Activity.run, Callable.runBody, Run.after, runPromise_of_pending present,
            ← Run.after, Run.after_of_error (Run.bind_of_error failed)]
      | ok inner start => exact Enters.follows own nested (.promise present outcome)

theorem follows_force {budget : Nat} {frame : Frame} {args returns : Option Int} {state : State}
    (same : whole = ⟨budget, .body .force frame args returns, state⟩) :
    Relation.ReflTransGen relation whole.state whole.after := by
  subst same
  exact (follows_compositionalOn own).force (fun _ _ => .refl) nested

theorem follows_step {budget : Nat} {frame : Frame} {step : Step} {state : State}
    (same : whole = ⟨budget, .step frame step, state⟩) :
    Relation.ReflTransGen relation whole.state whole.after := by
  subst same
  exact Run.Follows.compositional.step
    (Run.follows_push fun reached values => own (.pushes reached values)) nested

theorem follows_action {budget : Nat} {action : Action} {state : State}
    (same : whole = ⟨budget, .action action, state⟩) :
    Relation.ReflTransGen relation whole.state whole.after := by
  subst same
  by_cases direct : action.Direct
  · exact .single (own (.acts direct rfl))
  · rw [after_action]
    cases action with
    | call target frame args returns =>
        cases budget with
        | zero => exact .refl
        | succ smaller => exact nested _ .asked
    | run code frame =>
        cases budget with
        | zero => exact .refl
        | succ smaller => exact nested _ .ran
    | _ => exact absurd rfl direct

/-- A moment goes from its state to the state in which it ends by what it does itself and what its parts
do. -/
theorem follows_whole : Relation.ReflTransGen relation whole.state whole.after := by
  obtain ⟨budget, activity, state⟩ := whole
  cases activity with
  | call target frame args returns =>
      by_cases admitted : target.Admits frame args returns state
      · exact Starts.follows own nested (.body admitted)
      · rw [after_call_of_not_admits admitted]
  | body target frame args returns =>
      cases target with
      | closure scope code parameters => exact follows_closure own nested rfl
      | promise id => exact follows_promise own nested rfl
      | makeClosure domain =>
          refine (follows_compositionalOn own).makeClosure (fun event _ => ?_) domain
          exact Run.follows_record (fun reached counts log identity => own (.marks reached counts log identity)) event
      | delay => exact (follows_compositionalOn own).delay
      | force => exact follows_force own nested rfl
      | isPromise => exact (follows_compositionalOn own).isPromise
      | host id header => exact Starts.follows own nested .host
  | step frame step => exact follows_step own nested rfl
  | steps frame code =>
      cases code with
      | nil => exact .refl
      | cons step rest => exact Starts.follows own nested .first
  | program actions =>
      cases actions with
      | done result => exact .refl
      | fail failure => exact .refl
      | act action next => exact Starts.follows own nested .acts
      | attempt action next => exact Starts.follows own nested .attempts
  | action action => exact follows_action own nested rfl

end Parts

end Moment

end LazyStack
