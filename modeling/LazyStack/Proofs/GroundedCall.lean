import LazyStack.Proofs.GroundedState
import LazyStack.Proofs.Moment

/-!
Evaluation on grounded states. The body of a closure or promise runs in a new scope within the one that it was made
over, which is there already. So the calls of a grounded callable on a grounded frame keep the state grounded, as far
as bodies may nest, and so do grounded code and programs of hosts.
-/

namespace LazyStack

/-- A way to call that keeps states grounded, whatever grounded callable it calls on a grounded frame. -/
def Invoke.Grounded (invoke : Invoke) : Prop :=
  ∀ {bound : Nat} {target : Callable} {frame : Frame} (args returns : Option Int), target.Below bound →
    frame.Below bound → Run.Grounded bound (fun _ _ => True) (invoke target frame args returns)

structure Machine.Grounded (machine : Machine) : Prop where
  call : Invoke.Grounded machine.call
  run {bound : Nat} {frame : Frame} {code : List Step} : StepsBelow bound code → frame.Below bound →
    Run.Grounded bound (fun _ _ => True) (machine.run frame code)

variable {bound : Nat}

section Checks

variable (frame : Frame) (kind : String) (signature : Signature)

theorem grounded_requireCount (mismatch : Int → Int → Failure) (declared : Int) (asked : Option Int) :
    Run.Grounded bound (fun _ _ => True) (requireCount mismatch declared asked) := by
  cases asked with
  | none => exact .pure trivial
  | some requested =>
      rw [requireCount]
      split
      · exact .pure trivial
      · exact .throw _

theorem grounded_checkCounts (args returns : Option Int) :
    Run.Grounded bound (fun _ _ => True) (checkCounts kind signature args returns) :=
  (grounded_requireCount _ _ _).bind fun _ _ => grounded_requireCount _ _ _

theorem grounded_requireDepth : Run.Grounded bound (fun _ _ => True) (requireDepth frame) := by
  rw [requireDepth]
  refine Run.Grounded.get.bind fun _ _ => ?_
  dsimp only
  split
  · exact .throw _
  · exact .pure trivial

theorem grounded_requireOperands :
    Run.Grounded bound (fun _ _ => True) (requireOperands kind signature frame) := by
  rw [requireOperands]
  refine frame.stack.grounded_size.bind fun _ _ => ?_
  split
  · exact .throw _
  · exact .pure trivial

theorem grounded_requireContract (before : Nat) :
    Run.Grounded bound (fun _ _ => True) (requireContract kind signature before frame) := by
  rw [requireContract]
  refine frame.stack.grounded_size.bind fun _ _ => ?_
  split
  · exact .pure trivial
  · exact .throw _

end Checks

theorem grounded_bindParameters (scope : ScopeId) (names : List String) {values : List Value}
    (below : ∀ value ∈ values, value.Below bound) :
    Run.Grounded bound (fun _ _ => True) (bindParameters scope names values) := by
  induction names generalizing values bound with
  | nil => exact .pure trivial
  | cons name names ih =>
      cases values with
      | nil => exact .pure trivial
      | cons value values =>
          have first : Binding.Below bound (.value value) := below value List.mem_cons_self
          refine (scope.grounded_bind name first).bind fun wider _ => ih fun other member => ?_
          exact (below other (List.mem_cons_of_mem value member)).mono wider

theorem grounded_soleResult (stack : StackId) (failure : Nat → Failure) :
    Run.Grounded bound (fun more value => value.Below more) (soleResult stack failure) := by
  rw [soleResult]
  refine stack.grounded_size.bind fun _ _ => ?_
  split
  · exact stack.grounded_pop
  · exact .throw _

theorem grounded_enterClosure {scope : ScopeId} (inside : scope.index < bound) (parameters : List String)
    (frame : Frame) :
    Run.Grounded bound (fun more inner => inner.Below more) (enterClosure scope parameters frame) := by
  refine (grounded_requireDepth frame).bind fun first _ => ?_
  refine (frame.stack.grounded_popMany _).bind fun second values => ?_
  have still : ∀ parent, some scope = some parent → parent.index < _ := fun parent same =>
    Option.some.inj same ▸ Nat.lt_of_lt_of_le inside (Nat.le_trans first second)
  refine (Run.grounded_newLocalFrame still frame.depth).bind fun third inner => ?_
  refine (grounded_bindParameters _ parameters fun value member => (values value member).mono third).bind
    fun fourth _ => ?_
  exact .pure (inner.mono fourth)

theorem grounded_enterPromise {scope : Option ScopeId}
    (inside : ∀ parent, scope = some parent → parent.index < bound) (frame : Frame) :
    Run.Grounded bound (fun more inner => inner.Below more) (enterPromise scope frame) :=
  (grounded_requireDepth frame).bind fun wider _ =>
    Run.grounded_newLocalFrame (fun parent same => Nat.lt_of_lt_of_le (inside parent same) wider) frame.depth

section Makers

variable {frame : Frame} (inside : frame.Below bound)
include inside

theorem grounded_runMakeClosure (domain : DomainId) :
    Run.Grounded bound (fun _ _ => True) (runMakeClosure domain frame) := by
  refine frame.stack.grounded_pop.bind fun first code => ?_
  refine (Value.grounded_expect code .code _).bind fun second body => ?_
  refine frame.stack.grounded_pop.bind fun third list => ?_
  refine (Run.Grounded.of_reads (domain.reads_parameterNames _)).bind fun fourth _ => ?_
  refine (Run.grounded_record _).bind fun fifth _ => ?_
  have upTo := Nat.le_trans third (Nat.le_trans fourth fifth)
  have captured := inside.mono (Nat.le_trans first (Nat.le_trans second upTo))
  refine (domain.grounded_create .callable ?_).bind fun _ made => frame.stack.grounded_push made
  exact ⟨captured, body.steps.mono upTo⟩

theorem grounded_runDelay : Run.Grounded bound (fun _ _ => True) (runDelay frame) := by
  refine frame.stack.grounded_pop.bind fun first argument => ?_
  refine (Value.grounded_expect argument .code _).bind fun second body => ?_
  refine (Run.grounded_newPromise ((inside.mono first).mono second) body.steps).bind fun _ _ => ?_
  exact (DomainId.grounded_create _ .callable (by trivial)).bind fun _ made => frame.stack.grounded_push made

end Makers

theorem grounded_runIsPromise (frame : Frame) : Run.Grounded bound (fun _ _ => True) (runIsPromise frame) :=
  frame.stack.grounded_pop.bind fun _ _ =>
    (DomainId.grounded_create _ .bool (by trivial)).bind fun _ made => frame.stack.grounded_push made

section Bodies

variable {machine : Machine} (machines : machine.Grounded) {frame : Frame}
include machines

theorem grounded_runClosure {scope : ScopeId} (within : scope.index < bound) {body : List Step}
    (code : StepsBelow bound body) (parameters : List String) :
    Run.Grounded bound (fun _ _ => True) (runClosure machine scope body parameters frame) := by
  refine (grounded_enterClosure within parameters frame).bind fun first inner => ?_
  refine (machines.run (code.mono first) inner).bind fun _ _ => ?_
  exact (grounded_soleResult _ _).bind fun _ result => frame.stack.grounded_push result

theorem Promise.grounded_compute {promise : Promise} (below : promise.Below bound) :
    Run.Grounded bound (fun more value => value.Below more) (promise.compute machine frame) := by
  refine (grounded_enterPromise (fun parent same => below.scope same) frame).bind fun first inner => ?_
  refine (machines.run (below.body.mono first) inner).bind fun _ _ => ?_
  exact grounded_soleResult _ _

theorem grounded_runPromise (id : PromiseId) :
    Run.Grounded bound (fun _ _ => True) (runPromise machine id frame) := by
  refine Run.Grounded.get.bind fun _ ⟨grounded, same⟩ => ?_
  have below := same ▸ grounded.promise id
  dsimp only
  split
  next value held => exact frame.stack.grounded_push (below.value held)
  next =>
    refine (Promise.grounded_compute machines below).bind fun _ value => ?_
    refine (Run.grounded_resolve id value).bind fun second _ => ?_
    refine Run.Grounded.get.bind fun third _ => ?_
    refine (Run.grounded_record _).bind fun fourth _ => ?_
    exact frame.stack.grounded_push (((value.mono second).mono third).mono fourth)

theorem grounded_runForce (inside : frame.Below bound) :
    Run.Grounded bound (fun _ _ => True) (runForce machine frame) := by
  refine frame.stack.grounded_pop.bind fun first argument => ?_
  refine (Value.grounded_expect argument .callable _).bind fun second payload => ?_
  split
  next target => exact machines.call _ _ payload ((inside.mono first).mono second)
  next => exact .pure trivial

theorem Action.grounded_perform {action : Action} (below : action.Below bound) :
    Run.Grounded bound (fun more reply => action.ReplyBelow more reply) (action.perform machine) := by
  cases action with
  | pop stack => exact stack.grounded_pop
  | popMany stack count => exact stack.grounded_popMany count
  | push stack value => exact stack.grounded_push below
  | bind scope name binding => exact scope.grounded_bind name below.2
  | rebind scope name binding => exact scope.grounded_rebind name below.2
  | call target frame args returns => exact machines.call args returns below.1 below.2
  | run code frame => exact machines.run below.1 below.2
  | create domain tag payload => exact domain.grounded_create tag below
  | nullOf domain => exact domain.grounded_null
  | expect value tag description => exact Value.grounded_expect below tag description
  | count host => exact Run.grounded_count host
  | newScope parent => exact Run.grounded_newScope below
  | newStack => exact Run.grounded_newStack
  | newPromise scope body => exact Run.grounded_newPromise below.1 below.2
  | keep host frame => exact Run.grounded_keep host below
  | kept host => exact Run.Grounded.get.bind fun _ known => .pure fun _ member => known.2 ▸ known.1.kept member
  | valueText value => exact .of_reads (Run.reads_show fun state => state.valueText value)
  | scopeText scope => exact .of_reads (Run.reads_show fun state => state.scopeText scope)

theorem Program.grounded_run {α : Type} {fit : Nat → α → Prop} {program : Program α}
    (below : program.Below fit bound) : Run.Grounded bound fit (program.run machine) := by
  induction program generalizing bound with
  | done result => exact .pure below
  | fail failure => exact .throw failure
  | act action next ih =>
      exact (Action.grounded_perform machines below.1).bind fun wider reply => ih _ (below.2 _ _ wider reply)
  | attempt action next ih =>
      exact (Action.grounded_perform machines below.1).outcome.bind fun wider outcome =>
        ih _ (below.2 _ _ wider outcome)

theorem Callable.grounded_runBody {target : Callable} (below : target.Below bound) (inside : frame.Below bound)
    (args returns : Option Int) :
    Run.Grounded bound (fun _ _ => True) (target.runBody machine frame args returns) := by
  cases target with
  | closure scope body parameters => exact grounded_runClosure machines below.1 below.2 parameters
  | promise id => exact grounded_runPromise machines id
  | makeClosure domain => exact grounded_runMakeClosure inside domain
  | delay => exact grounded_runDelay inside
  | force => exact grounded_runForce machines inside
  | isPromise => exact grounded_runIsPromise frame
  | host id header =>
      refine Run.Grounded.get.bind fun wider ⟨grounded, same⟩ => ?_
      have hosted := same ▸ grounded.host id
      exact Program.grounded_run machines (hosted _ frame args returns (Nat.le_refl _) (inside.mono wider))

end Bodies

theorem Step.grounded_execute {invoke : Invoke} (invokes : invoke.Grounded) {frame : Frame}
    (inside : frame.Below bound) {step : Step} (below : step.Below bound) :
    Run.Grounded bound (fun _ _ => True) (step.execute invoke frame) := by
  cases step with
  | push value => exact frame.stack.grounded_push below
  | get name =>
      refine (frame.scope.grounded_lookup name).bind fun {_ found} wider binding => ?_
      cases found with
      | callable target => exact invokes _ _ binding (inside.mono wider)
      | value held => exact frame.stack.grounded_push binding
  | call name args returns =>
      refine (frame.scope.grounded_lookup name).bind fun first binding => ?_
      refine (Binding.grounded_callee binding name).bind fun second target => ?_
      exact invokes args returns target ((inside.mono first).mono second)
  | note text => exact .pure trivial

theorem grounded_executeSteps {invoke : Invoke} (invokes : invoke.Grounded) {frame : Frame}
    (inside : frame.Below bound) {code : List Step} (below : StepsBelow bound code) :
    Run.Grounded bound (fun _ _ => True) (executeSteps invoke frame code) := by
  induction code generalizing bound with
  | nil => exact .pure trivial
  | cons step rest ih =>
      exact (Step.grounded_execute invokes inside below.1).bind fun wider _ =>
        ih (inside.mono wider) (below.2.mono wider)

theorem Callable.grounded_callOnce {machine : Machine} (machines : machine.Grounded) :
    Invoke.Grounded (Callable.callOnce machine) := by
  intro bound target frame args returns below inside
  rw [callOnce]
  cases target.signature? with
  | none => exact Callable.grounded_runBody machines below inside args returns
  | some signature =>
      refine (grounded_checkCounts _ signature args returns).bind fun first _ => ?_
      refine (grounded_requireOperands frame _ signature).bind fun second _ => ?_
      have upTo := Nat.le_trans first second
      refine (Callable.grounded_runBody machines (below.mono upTo) (inside.mono upTo) args returns).bind
        fun _ _ => ?_
      exact grounded_requireContract frame _ signature _

theorem Machine.grounded_ofCalls {invoke : Invoke} (invokes : invoke.Grounded) :
    (Machine.ofCalls invoke).Grounded where
  call := invokes
  run below inside := grounded_executeSteps invokes inside below

theorem Machine.grounded_stopped : Machine.stopped.Grounded where
  call _ _ _ _ := .throw _
  run _ _ := .throw _

theorem Callable.grounded_callWithin (budget : Nat) : Invoke.Grounded (Callable.callWithin budget) := by
  induction budget with
  | zero => exact Callable.grounded_callOnce Machine.grounded_stopped
  | succ budget ih => exact Callable.grounded_callOnce (Machine.grounded_ofCalls ih)

theorem Machine.grounded_within (budget : Nat) : (Machine.within budget).Grounded := by
  cases budget with
  | zero => exact Machine.grounded_stopped
  | succ budget => exact Machine.grounded_ofCalls (Callable.grounded_callWithin budget)

end LazyStack
