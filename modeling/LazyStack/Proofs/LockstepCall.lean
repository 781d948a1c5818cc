import LazyStack.Proofs.LockstepOperation

/-!
Evaluation in lockstep. Like calls on like frames run in lockstep, as far as their bodies may nest, and so do
like pieces of code and like programs of hosts: what a body does depends on nothing but what its callable and
its frame lead to.
-/

namespace LazyStack

/-- A way to call that takes like callables on like frames to runs in lockstep. -/
structure Invoke.Uniform (settled : Prop) (invoke : Invoke) : Prop where
  lockstep {pairs : Counterparts} {target other : Callable} {frame caller : Frame}
    {args returns : Option Int} : target.Mirrors pairs other → frame.Mirrors pairs caller →
    Run.Lockstep settled pairs Counterparts.Always (invoke target frame args returns)
      (invoke other caller args returns)

structure Machine.Uniform (settled : Prop) (machine : Machine) : Prop where
  call : Invoke.Uniform settled machine.call
  run {pairs : Counterparts} {code other : List Step} {frame caller : Frame} :
    Code.Mirrors pairs code other → frame.Mirrors pairs caller →
    Run.Lockstep settled pairs Counterparts.Always (machine.run frame code) (machine.run caller other)

variable {settled : Prop} {pairs : Counterparts}

section Checks

theorem lockstep_requireCount (mismatch : Int → Int → Failure) (declared : Int) (asked : Option Int) :
    Run.Lockstep settled pairs Counterparts.Always (requireCount mismatch declared asked)
      (requireCount mismatch declared asked) := by
  cases asked with
  | none => exact .pure trivial
  | some requested => exact .ite Iff.rfl (.pure trivial) (.throw _)

theorem lockstep_checkCounts (kind : String) (signature : Signature) (args returns : Option Int) :
    Run.Lockstep settled pairs Counterparts.Always (checkCounts kind signature args returns)
      (checkCounts kind signature args returns) :=
  (lockstep_requireCount _ _ _).bind fun _ _ => lockstep_requireCount _ _ _

variable {frame caller : Frame} (frames : frame.Mirrors pairs caller)
include frames

theorem lockstep_requireDepth :
    Run.Lockstep settled pairs Counterparts.Always (requireDepth frame) (requireDepth caller) := by
  refine Run.Lockstep.get.bind fun _ mirrors => ?_
  rw [mirrors.callLimit, frames.depth]
  exact .ite Iff.rfl (.throw _) (.pure trivial)

theorem lockstep_requireOperands (kind : String) (signature : Signature) :
    Run.Lockstep settled pairs Counterparts.Same (requireOperands kind signature frame)
      (requireOperands kind signature caller) := by
  refine (StackId.lockstep_size frames.stack).bind fun _ same => ?_
  subst same
  exact .ite Iff.rfl (.throw _) (.pure rfl)

theorem lockstep_requireContract (kind : String) (signature : Signature) (before : Nat) :
    Run.Lockstep settled pairs Counterparts.Always (requireContract kind signature before frame)
      (requireContract kind signature before caller) := by
  refine (StackId.lockstep_size frames.stack).bind fun _ same => ?_
  subst same
  exact .ite Iff.rfl (.pure trivial) (.throw _)

end Checks

theorem Promise.Mirrors.body_getD {promise like : Promise} (same : promise.Mirrors pairs like) :
    Code.Mirrors pairs (promise.body.getD []) (like.body.getD []) := by
  have bodies := same.body
  generalize promise.body = body at bodies
  generalize like.body = other at bodies
  cases bodies with
  | none => exact .nil
  | some code => exact code

theorem lockstep_soleResult {stack other : StackId} (paired : pairs (.stack stack) (.stack other))
    (failure : Nat → Failure) :
    Run.Lockstep settled pairs Value.Mirrors (soleResult stack failure) (soleResult other failure) := by
  refine (StackId.lockstep_size paired).bind fun within same => ?_
  subst same
  exact .ite Iff.rfl (StackId.lockstep_pop (within paired)) (.throw _)

theorem lockstep_bindParameters {scope other : ScopeId} (paired : pairs (.scope scope) (.scope other))
    (names : List String) {values others : List Value} (same : Value.AllMirror pairs values others) :
    Run.Lockstep settled pairs Counterparts.Always (bindParameters scope names values)
      (bindParameters other names others) := by
  induction names generalizing values others pairs with
  | nil => exact .pure trivial
  | cons name names ih =>
      cases same with
      | nil => exact .pure trivial
      | cons first rest =>
          exact (ScopeId.lockstep_bind paired name (.value first)).bind fun within _ =>
            ih (within paired) (Value.AllMirror.mono within rest)

theorem Step.lockstep_execute {invoke : Invoke} (uniform : invoke.Uniform settled)
    {frame caller : Frame} (frames : frame.Mirrors pairs caller) {step other : Step}
    (same : step.Mirrors pairs other) :
    Run.Lockstep settled pairs Counterparts.Always (step.execute invoke frame)
      (other.execute invoke caller) := by
  cases same with
  | push value => exact StackId.lockstep_push frames.stack value
  | get =>
      refine (ScopeId.lockstep_lookup frames.scope _).bind fun within found => ?_
      cases found with
      | callable target => exact uniform.lockstep target (frames.mono within)
      | value bound => exact StackId.lockstep_push (within frames.stack) bound
  | call =>
      refine (ScopeId.lockstep_lookup frames.scope _).bind fun within found => ?_
      refine (Binding.lockstep_callee found _).bind fun further target => ?_
      exact uniform.lockstep target ((frames.mono within).mono further)
  | note => exact .pure trivial

theorem lockstep_executeSteps {invoke : Invoke} (uniform : invoke.Uniform settled)
    {frame caller : Frame} (frames : frame.Mirrors pairs caller) {code other : List Step}
    (same : Code.Mirrors pairs code other) :
    Run.Lockstep settled pairs Counterparts.Always (executeSteps invoke frame code)
      (executeSteps invoke caller other) := by
  induction code generalizing other pairs with
  | nil =>
      cases same
      exact .pure trivial
  | cons step rest ih =>
      cases same with
      | cons first later =>
          exact (Step.lockstep_execute uniform frames first).bind fun within _ =>
            ih (frames.mono within) (later.mono within)

section Bodies

variable {machine : Machine} (uniform : machine.Uniform settled) {frame caller : Frame}
  (frames : frame.Mirrors pairs caller)

section Entries

include frames

theorem lockstep_enterClosure {scope other : ScopeId} (paired : pairs (.scope scope) (.scope other))
    (parameters : List String) :
    Run.Lockstep settled pairs Frame.Mirrors (enterClosure scope parameters frame)
      (enterClosure other parameters caller) := by
  refine (lockstep_requireDepth frames).bind fun within _ => ?_
  refine (StackId.lockstep_popMany (within frames.stack) _).bind fun further values => ?_
  rw [frames.depth]
  refine (Run.lockstep_newLocalFrame (.some (further (within paired))) _).bind fun more inner => ?_
  refine (lockstep_bindParameters inner.scope parameters (Value.AllMirror.mono more values)).bind
    fun beyond _ => ?_
  exact .pure (inner.mono beyond)

theorem lockstep_enterPromise {scope other : Option ScopeId}
    (linked : Option.Rel (fun one two => pairs (.scope one) (.scope two)) scope other) :
    Run.Lockstep settled pairs Frame.Mirrors (enterPromise scope frame) (enterPromise other caller) := by
  refine (lockstep_requireDepth frames).bind fun within _ => ?_
  rw [frames.depth]
  exact Run.lockstep_newLocalFrame (rel_imp (fun paired => within paired) linked) _

theorem lockstep_runMakeClosure {domain other : DomainId} (paired : pairs (.domain domain) (.domain other)) :
    Run.Lockstep settled pairs Counterparts.Always (runMakeClosure domain frame)
      (runMakeClosure other caller) := by
  refine (StackId.lockstep_pop frames.stack).bind fun first code => ?_
  refine (Value.lockstep_expect code .code _).bind fun second body => ?_
  have upTo := first.trans second
  refine (StackId.lockstep_pop (upTo frames.stack)).bind fun third list => ?_
  refine (DomainId.lockstep_parameterNames (third (upTo paired)) list).bind fun fourth names => ?_
  subst names
  refine (Run.lockstep_record rfl).bind fun fifth _ => ?_
  have beyond := third.trans (fourth.trans fifth)
  have steps := body.steps.mono beyond
  have scopes := beyond (upTo frames.scope)
  refine (DomainId.lockstep_create (beyond (upTo paired)) .callable
    (.callable (.closure scopes steps))).bind fun sixth made => ?_
  exact StackId.lockstep_push (sixth (beyond (upTo frames.stack))) made

theorem lockstep_runDelay :
    Run.Lockstep settled pairs Counterparts.Always (runDelay frame) (runDelay caller) := by
  refine (StackId.lockstep_pop frames.stack).bind fun first argument => ?_
  refine (Value.lockstep_expect argument .code _).bind fun second body => ?_
  refine (Run.lockstep_newPromise (second (first frames.scope)) body.steps).bind fun third promises => ?_
  have domains := third (second argument.domain)
  refine (DomainId.lockstep_create domains .callable (.callable (.promise promises))).bind fun fourth made => ?_
  exact StackId.lockstep_push (fourth (third (second (first frames.stack)))) made

theorem lockstep_runIsPromise :
    Run.Lockstep settled pairs Counterparts.Always (runIsPromise frame) (runIsPromise caller) := by
  refine (StackId.lockstep_pop frames.stack).bind fun first value => ?_
  rw [value.isPromise_eq]
  refine (DomainId.lockstep_create value.domain .bool .bool).bind fun second made => ?_
  exact StackId.lockstep_push (second (first frames.stack)) made

end Entries

include uniform frames

theorem lockstep_runClosure {scope other : ScopeId} (paired : pairs (.scope scope) (.scope other))
    {body like : List Step} (code : Code.Mirrors pairs body like) (parameters : List String) :
    Run.Lockstep settled pairs Counterparts.Always (runClosure machine scope body parameters frame)
      (runClosure machine other like parameters caller) := by
  refine (lockstep_enterClosure frames paired parameters).bind fun first inner => ?_
  refine (uniform.run (code.mono first) inner).bind fun second _ => ?_
  refine (lockstep_soleResult (second inner.stack) _).bind fun third result => ?_
  exact StackId.lockstep_push (third (second (first frames.stack))) result

theorem Promise.lockstep_compute {promise like : Promise} (same : promise.Mirrors pairs like) :
    Run.Lockstep settled pairs Value.Mirrors (promise.compute machine frame)
      (like.compute machine caller) := by
  refine (lockstep_enterPromise frames same.scope).bind fun first inner => ?_
  refine (uniform.run (same.body_getD.mono first) inner).bind fun second _ => ?_
  exact lockstep_soleResult (second inner.stack) _

theorem lockstep_runPromise {id other : PromiseId} (paired : pairs (.promise id) (.promise other)) :
    Run.Lockstep settled pairs Counterparts.Always (runPromise machine id frame)
      (runPromise machine other caller) := by
  refine Run.Lockstep.get.bind fun first mirrors => ?_
  have same := mirrors.promise (first paired)
  have values := same.value
  generalize State.promise _ id = promise at same values ⊢
  generalize State.promise _ other = like at same values ⊢
  dsimp only
  generalize promise.value = value at values ⊢
  generalize like.value = answer at values ⊢
  cases values with
  | some value => exact StackId.lockstep_push (first frames.stack) value
  | none =>
      refine (Promise.lockstep_compute uniform (frames.mono first) same).bind fun second value => ?_
      refine (Run.lockstep_resolve (second (first paired)) value).bind fun third _ => ?_
      refine Run.Lockstep.get.bind fun fourth reached => ?_
      have words := reached.valueText_eq ((value.mono third).mono fourth)
      have message : (Event.promiseResolved id _).message = (Event.promiseResolved other _).message :=
        congrArg (fun text => text.toOption.map fun shown => s!"promise resolved to {shown}") words
      refine (Run.lockstep_record message).bind fun fifth _ => ?_
      have upTo := third.trans (fourth.trans fifth)
      exact StackId.lockstep_push (upTo (second (first frames.stack))) (value.mono upTo)

theorem lockstep_runForce :
    Run.Lockstep settled pairs Counterparts.Always (runForce machine frame) (runForce machine caller) := by
  refine (StackId.lockstep_pop frames.stack).bind fun first argument => ?_
  refine (Value.lockstep_expect argument .callable _).bind fun second payload => ?_
  cases payload with
  | callable target => exact uniform.call.lockstep target ((frames.mono first).mono second)
  | _ => exact .pure trivial

end Bodies

theorem Action.lockstep_perform {machine : Machine} (uniform : machine.Uniform settled)
    {action other : Action} {replies : Counterparts → action.Reply → other.Reply → Prop}
    (same : Action.Mirrors pairs action other replies) :
    Run.Lockstep settled pairs replies (action.perform machine) (other.perform machine) := by
  cases same with
  | pop paired => exact StackId.lockstep_pop paired
  | popMany paired => exact StackId.lockstep_popMany paired _
  | push paired value => exact StackId.lockstep_push paired value
  | bind paired binding => exact ScopeId.lockstep_bind paired _ binding
  | rebind paired binding => exact ScopeId.lockstep_rebind paired _ binding
  | call target frames => exact uniform.call.lockstep target frames
  | run code frames => exact uniform.run code frames
  | create paired payload => exact DomainId.lockstep_create paired _ payload
  | nullOf paired => exact DomainId.lockstep_null paired
  | expect value => exact Value.lockstep_expect value _ _
  | count paired => exact Run.lockstep_count paired
  | newScope linked => exact Run.lockstep_newScope linked
  | newStack => exact Run.lockstep_newStack
  | newPromise paired body => exact Run.lockstep_newPromise paired body
  | keep paired frames => exact Run.lockstep_keep paired frames
  | kept paired =>
      refine Run.Lockstep.get.bind fun within mirrors => ?_
      obtain ⟨-, -, frames⟩ := mirrors.host (mirrors.agree (within paired))
      exact .pure frames
  | valueText value =>
      exact Run.Lockstep.get.bind fun within mirrors => .written (mirrors.valueText_eq (value.mono within))
  | scopeText paired =>
      exact Run.Lockstep.get.bind fun within mirrors => .written (mirrors.scopeText_eq (within paired))

theorem Program.lockstep_run {machine : Machine} (uniform : machine.Uniform settled) {α β : Type}
    {fit : Counterparts → α → β → Prop} {program : Program α} {other : Program β}
    (same : Program.Mirrors fit pairs program other) :
    Run.Lockstep settled pairs fit (program.run machine) (other.run machine) := by
  induction same with
  | done fits => exact .pure fits
  | fail => exact .throw _
  | act action _ ih =>
      exact (Action.lockstep_perform uniform action).bind fun within reply => ih within reply
  | attempt action _ ih =>
      exact (Action.lockstep_perform uniform action).outcome.bind fun within outcome => ih within outcome

section Calls

variable {target other : Callable} {frame caller : Frame} {args returns : Option Int}

theorem Callable.lockstep_runBody {machine : Machine} (uniform : machine.Uniform settled)
    (same : target.Mirrors pairs other) (frames : frame.Mirrors pairs caller) :
    Run.Lockstep settled pairs Counterparts.Always (target.runBody machine frame args returns)
      (other.runBody machine caller args returns) := by
  cases same with
  | closure paired code => exact lockstep_runClosure uniform frames paired code _
  | promise paired => exact lockstep_runPromise uniform frames paired
  | makeClosure paired => exact lockstep_runMakeClosure frames paired
  | delay => exact lockstep_runDelay frames
  | force => exact lockstep_runForce uniform frames
  | isPromise => exact lockstep_runIsPromise frames
  | host paired =>
      refine Run.Lockstep.get.bind fun within mirrors => ?_
      obtain ⟨bodies, _⟩ := mirrors.host (within paired)
      exact Program.lockstep_run uniform (bodies.behaves (.refl _) (frames.mono within))

theorem Callable.uniform_callOnce {machine : Machine} (uniform : machine.Uniform settled) :
    Invoke.Uniform settled (Callable.callOnce machine) := by
  refine ⟨fun {pairs target other frame caller args returns} same frames => ?_⟩
  rw [callOnce, callOnce, same.signature?_eq, same.kind_eq]
  cases other.signature? with
  | none => exact Callable.lockstep_runBody uniform same frames
  | some signature =>
      refine (lockstep_checkCounts _ signature args returns).bind fun first _ => ?_
      refine (lockstep_requireOperands (frames.mono first) _ signature).bind fun second before => ?_
      subst before
      have upTo := first.trans second
      refine (Callable.lockstep_runBody uniform (same.mono upTo) (frames.mono upTo)).bind fun third _ => ?_
      exact lockstep_requireContract ((frames.mono upTo).mono third) _ signature _

theorem Machine.uniform_stopped : Machine.stopped.Uniform settled where
  call := ⟨fun _ _ => .throw _⟩
  run _ _ := .throw _

theorem Machine.uniform_ofCalls {invoke : Invoke} (uniform : invoke.Uniform settled) :
    (Machine.ofCalls invoke).Uniform settled where
  call := uniform
  run code frames := lockstep_executeSteps uniform frames code

theorem Callable.uniform_callWithin (budget : Nat) : Invoke.Uniform settled (Callable.callWithin budget) := by
  induction budget with
  | zero => exact Callable.uniform_callOnce Machine.uniform_stopped
  | succ budget ih => exact Callable.uniform_callOnce (Machine.uniform_ofCalls ih)

theorem Callable.lockstep_call (same : target.Mirrors pairs other) (frames : frame.Mirrors pairs caller) :
    Run.Lockstep settled pairs Counterparts.Always (target.call frame args returns)
      (other.call caller args returns) := by
  refine Run.Lockstep.get.bind fun within mirrors => ?_
  rw [mirrors.callLimit, frames.depth]
  exact (Callable.uniform_callWithin _).lockstep (same.mono within) (frames.mono within)

theorem lockstep_runCode (frames : frame.Mirrors pairs caller) {code like : List Step}
    (same : Code.Mirrors pairs code like) :
    Run.Lockstep settled pairs Counterparts.Always (runCode frame code) (runCode caller like) := by
  refine Run.Lockstep.get.bind fun within mirrors => ?_
  rw [mirrors.callLimit, frames.depth]
  exact lockstep_executeSteps (Callable.uniform_callWithin _) (frames.mono within) (same.mono within)

end Calls

end LazyStack
