import LazyStack.Proofs.Moment

/-!
What the course of a run keeps. Every evolution holds from the start of a moment to its end, provided
that it also survives the storing of each value which a promise computes in its course, and then it
holds from the start to every moment that comes up.
-/

namespace LazyStack

namespace Evolution

variable {relation : State → State → Prop} (evolution : Evolution relation)
include evolution

theorem keeps_bindParameters (scope : ScopeId) (names : List String) (values : List Value) :
    Run.Keeps relation (bindParameters scope names values) := by
  induction names generalizing values with
  | nil => exact evolution.keeps_pure ()
  | cons name names ih =>
      cases values with
      | nil => exact evolution.keeps_pure ()
      | cons value values =>
          exact evolution.keeps_bind (evolution.keeps_bindName scope name _) fun _ => ih values

theorem keeps_requireDepth (frame : Frame) : Run.Keeps relation (requireDepth frame) := by
  rw [requireDepth]
  refine evolution.keeps_bind evolution.keeps_get fun reached => ?_
  dsimp only
  split
  · exact evolution.keeps_throw _
  · exact evolution.keeps_pure ()

theorem keeps_enterClosure (scope : ScopeId) (parameters : List String) (frame : Frame) :
    Run.Keeps relation (enterClosure scope parameters frame) := by
  rw [enterClosure]
  refine evolution.keeps_bind (evolution.keeps_requireDepth frame) fun _ => ?_
  refine evolution.keeps_bind (evolution.keeps_popMany frame.stack _) fun values => ?_
  refine evolution.keeps_bind (evolution.keeps_newLocalFrame _ _) fun inner => ?_
  refine evolution.keeps_bind (evolution.keeps_bindParameters inner.scope parameters values) fun _ => ?_
  exact evolution.keeps_pure inner

theorem keeps_enterPromise (scope : Option ScopeId) (frame : Frame) :
    Run.Keeps relation (enterPromise scope frame) :=
  evolution.keeps_bind (evolution.keeps_requireDepth frame) fun _ => evolution.keeps_newLocalFrame _ _

theorem keeps_soleResult (stack : StackId) (failure : Nat → Failure) :
    Run.Keeps relation (soleResult stack failure) := by
  rw [soleResult]
  refine evolution.keeps_bind (evolution.keeps_size stack) fun count => ?_
  split
  · exact evolution.keeps_pop stack
  · exact evolution.keeps_throw _

theorem compositionalOn (stack : StackId) :
    Run.CompositionalOn stack fun run state => relation state (run.after state) where
  bind first rest := evolution.after_bind first rest
  pure := evolution.keeps_pure
  refuse failure state _ := evolution.keeps_throw failure state
  refuseShowing _ _ state _ :=
    evolution.keeps_of_reads (Run.reads_get.bind fun _ => Run.reads_throw _) state
  null domain := evolution.keeps_of_reads domain.reads_null
  typeName domain tag := evolution.keeps_of_reads (domain.reads_typeName tag)
  lookup scope name := evolution.keeps_of_reads (scope.reads_lookup name)
  pop := evolution.keeps_pop stack
  push := evolution.keeps_push stack
  create := evolution.keeps_create
  newPromise := evolution.keeps_newPromise

end Evolution

namespace Moment

def Stores (relation : State → State → Prop) (moment : Moment) : Prop :=
  ∀ {budget id frame args returns state value middle},
    moment.Reaches ⟨budget, .body (.promise id) frame args returns, state⟩ →
    (state.promise id).value = none →
    (state.promise id).compute (.within budget) frame state = .ok value middle →
    relation state middle → relation state (middle.resolve id value)

theorem Stores.part {relation : State → State → Prop} {whole part : Moment}
    (stores : whole.Stores relation) (starts : whole.Starts part) : part.Stores relation :=
  fun reached => stores (.inside starts reached)

section Evolves

variable {relation : State → State → Prop} (evolution : Evolution relation)
include evolution

-- A body runs its code under the next smaller budget, and without any budget it fails at once.
theorem run_evolves {budget : Nat} {inner : Frame} {code : List Step} {start : State}
    (nested : ∀ smaller, budget = smaller + 1 →
      relation start (Moment.after ⟨smaller, .steps inner code, start⟩)) :
    relation start (((Machine.within budget).run inner code).after start) := by
  cases budget with
  | zero => exact evolution.refl start
  | succ smaller => exact nested smaller rfl

theorem closure_evolves {budget : Nat} {scope : ScopeId} {code : List Step} {parameters : List String}
    {frame : Frame} {state : State}
    (nested : ∀ smaller inner start, budget = smaller + 1 →
      enterClosure scope parameters frame state = .ok inner start →
      relation start (Moment.after ⟨smaller, .steps inner code, start⟩)) :
    relation state ((runClosure (.within budget) scope code parameters frame).after state) := by
  rw [runClosure]
  refine evolution.after_bind (evolution.keeps_enterClosure _ _ _ state) fun inner start entered => ?_
  refine evolution.after_bind ?_ fun _ middle _ => ?_
  · exact run_evolves evolution fun smaller same => nested smaller inner start same entered
  · exact evolution.keeps_bind (evolution.keeps_soleResult _ _) (evolution.keeps_push _) middle

theorem compute_evolves {budget : Nat} {promise : Promise} {frame : Frame} {state : State}
    (nested : ∀ smaller inner start, budget = smaller + 1 →
      enterPromise promise.scope frame state = .ok inner start →
      relation start (Moment.after ⟨smaller, .steps inner (promise.body.getD []), start⟩)) :
    relation state ((promise.compute (.within budget) frame).after state) := by
  rw [Promise.compute]
  refine evolution.after_bind (evolution.keeps_enterPromise _ _ state) fun inner start entered => ?_
  refine evolution.after_bind ?_ fun _ middle _ => evolution.keeps_soleResult _ _ middle
  exact run_evolves evolution fun smaller same => nested smaller inner start same entered

theorem promise_evolves {budget : Nat} {id : PromiseId} {frame : Frame} {state : State}
    (computed : (state.promise id).value = none →
      relation state (((state.promise id).compute (.within budget) frame).after state))
    (stored : ∀ value middle, (state.promise id).value = none →
      (state.promise id).compute (.within budget) frame state = .ok value middle →
      relation state middle → relation state (middle.resolve id value)) :
    relation state ((runPromise (.within budget) id frame).after state) := by
  rw [runPromise, Run.after_bind, Run.get_apply]
  dsimp only
  cases present : (state.promise id).value with
  | some value => exact evolution.keeps_push frame.stack value state
  | none =>
      have computation := computed present
      rw [Run.after] at computation
      rw [Run.after_bind]
      cases outcome : (state.promise id).compute (.within budget) frame state with
      | error failure middle =>
          rw [outcome] at computation
          exact computation
      | ok value middle =>
          rw [outcome] at computation
          refine evolution.trans (stored value middle present outcome computation) ?_
          have logged := evolution.keeps_bind (evolution.keeps_bind evolution.keeps_get fun reached =>
            evolution.keeps_record (.promiseResolved id (reached.valueText value)))
            fun _ => evolution.keeps_push frame.stack value
          exact logged (middle.resolve id value)

theorem perform_evolves {budget : Nat} {action : Action} {state : State}
    (nested : ∀ part, Starts ⟨budget, .action action, state⟩ part → relation part.state part.after) :
    relation state ((action.perform (.within budget)).after state) := by
  cases action with
  | pop stack => exact evolution.keeps_pop stack state
  | popMany stack count => exact evolution.keeps_popMany stack count state
  | push stack value => exact evolution.keeps_push stack value state
  | bind scope name binding => exact evolution.keeps_bindName scope name binding state
  | rebind scope name binding => exact evolution.keeps_rebind scope name binding state
  | call target frame args returns =>
      cases budget with
      | zero => exact evolution.refl state
      | succ smaller => exact nested _ .asked
  | run code frame =>
      refine run_evolves evolution fun smaller same => ?_
      subst same
      exact nested _ .ran
  | newScope parent => exact evolution.keeps_newScope parent state
  | newStack => exact evolution.keeps_newStack state
  | newPromise scope body => exact evolution.keeps_newPromise scope body state
  | create domain tag payload => exact evolution.keeps_create domain tag payload state
  | nullOf domain => exact evolution.refl state
  | expect value tag description => exact evolution.keeps_expect value tag description state
  | count host => exact evolution.keeps_count host state
  | keep host frame => exact evolution.keeps_keep host frame state
  | kept host => exact evolution.refl state
  | valueText value => exact evolution.keeps_show _ state
  | scopeText scope => exact evolution.keeps_show _ state

/-- An evolution that survives the storing of values holds across the whole course of a moment. -/
theorem evolves (moment : Moment) (stores : moment.Stores relation) :
    relation moment.state moment.after := by
  induction moment using Moment.induction with
  | whole moment ih =>
  obtain ⟨budget, activity, state⟩ := moment
  have nested (part : Moment) (starts : Starts ⟨budget, activity, state⟩ part) :
      relation part.state part.after := ih part starts (stores.part starts)
  cases activity with
  | call target frame args returns =>
      by_cases admitted : target.Admits frame args returns state
      · rw [after_call_of_admits admitted]
        exact nested _ (.body admitted)
      · rw [after_call_of_not_admits admitted]
        exact evolution.refl state
  | body target frame args returns =>
      cases target with
      | closure scope code parameters =>
          refine closure_evolves evolution fun smaller inner start same entered => ?_
          subst same
          exact nested _ (.closure entered)
      | promise id =>
          refine promise_evolves evolution (fun pending => ?_)
            fun value middle pending computed earlier => ?_
          · refine compute_evolves evolution fun smaller inner start same entered => ?_
            subst same
            exact nested _ (.promise pending entered)
          · exact stores (.here _) pending computed earlier
      | makeClosure domain => exact (evolution.compositionalOn frame.stack).makeClosure evolution.keeps_record domain
      | delay => exact (evolution.compositionalOn frame.stack).delay
      | force => exact (evolution.compositionalOn frame.stack).force (fun _ => evolution.refl) nested
      | isPromise => exact (evolution.compositionalOn frame.stack).isPromise
      | host id header =>
          exact nested ⟨budget, .program (state.hostBody id frame args returns), state⟩ .host
  | step frame step =>
      have compositional := evolution.compositionalOn frame.stack
      exact compositional.step (fun value => compositional.push value state) nested
  | steps frame code =>
      cases code with
      | nil => exact evolution.refl state
      | cons step rest =>
          refine evolution.after_bind (nested _ .first) fun _ middle executed => ?_
          exact nested _ (.rest executed)
  | action action =>
      exact evolution.after_bind (perform_evolves evolution nested) fun _ middle _ =>
        evolution.refl middle
  | program actions =>
      cases actions with
      | done result => exact evolution.refl state
      | fail failure => exact evolution.refl state
      | act action next =>
          have performs : relation state ((action.perform (.within budget)).after state) := by
            rw [← after_action]
            exact nested _ .acts
          exact evolution.after_bind performs fun reply middle performed => nested _ (.next performed)
      | attempt action next =>
          have performs : relation state ((action.perform (.within budget)).after state) := by
            rw [← after_action]
            exact nested _ .attempts
          rw [← Run.after_outcome] at performs
          exact evolution.after_bind performs fun outcome middle attempted =>
            nested _ (.goesOn attempted)

theorem starts_evolves {whole part : Moment} (starts : whole.Starts part)
    (stores : whole.Stores relation) : relation whole.state part.state := by
  cases starts with
  | body admitted => exact evolution.refl _
  | closure entered => exact (evolution.keeps_enterClosure _ _ _).of_ok entered
  | promise pending entered => exact (evolution.keeps_enterPromise _ _).of_ok entered
  | force popped expected => exact (evolution.keeps_pop _).of_ok popped
  | host => exact evolution.refl _
  | got bound => exact evolution.refl _
  | named bound resolved => exact evolution.refl _
  | first => exact evolution.refl _
  | rest executed =>
      have kept := evolves evolution _ (stores.part .first)
      rw [after, Activity.run, Run.after_of_ok executed] at kept
      exact kept
  | asked => exact evolution.refl _
  | ran => exact evolution.refl _
  | acts => exact evolution.refl _
  | attempts => exact evolution.refl _
  | next performed =>
      have kept := evolves evolution _ (stores.part .acts)
      rw [after_action, Run.after_of_ok performed] at kept
      exact kept
  | goesOn attempted =>
      have kept := evolves evolution _ (stores.part .attempts)
      rw [after_action, ← Run.after_outcome, Run.after_of_ok attempted] at kept
      exact kept

theorem reaches_evolves {whole inner : Moment} (reached : whole.Reaches inner)
    (stores : whole.Stores relation) : relation whole.state inner.state := by
  induction reached with
  | here => exact evolution.refl _
  | inside starts _ ih =>
      exact evolution.trans (starts_evolves evolution starts stores) (ih (stores.part starts))

end Evolves

end Moment

end LazyStack
