import LazyStack.Proofs.Confinement
import LazyStack.Proofs.Limit
import LazyStack.Proofs.Termination

/-!
The limit on depth only cuts runs off. Nothing reads the limit, or the depth of a frame, but the test that
comes before a body. So a run that this test does not end goes the same way on a frame that is no deeper
and under a limit that is no lower, as long as the hosts that it calls do not look at either.
-/

namespace LazyStack

inductive Action.Lifts : (action other : Action) → (action.Reply → other.Reply → Prop) → Prop
  | direct {action} : action.Direct → action.host? = none → Lifts action action (· = ·)
  | count {host} : Lifts (.count host) (.count host) (· = ·)
  | keep {host frame other} : other.Shallower frame → Lifts (.keep host frame) (.keep host other) (· = ·)
  | kept {host} :
      Lifts (.kept host) (.kept host) fun frames others => List.Forall₂ Frame.Shallower others frames
  | call {target frame other args returns} :
      other.Shallower frame →
      Lifts (.call target frame args returns) (.call target other args returns) (· = ·)
  | run {code frame other} : other.Shallower frame → Lifts (.run code frame) (.run code other) (· = ·)

namespace Program

variable {α β : Type}

/-- A program that can only end as one that was cut off for its depth. -/
inductive GivesUp : Program α → Prop
  | fail {failure} : failure.kind = .recursion → GivesUp (.fail failure)
  | attempt {action next} : (∀ outcome, GivesUp (next outcome)) → GivesUp (.attempt action next)

/-- Programs do the same, the second on frames that may be shallower. Neither goes on after what it has
attempted was cut off for its depth, since that would tell it how deep it is. -/
inductive Lifts : Program α → Program α → Prop
  | done (result : α) : Lifts (.done result) (.done result)
  | fail (failure : Failure) : Lifts (.fail failure) (.fail failure)
  | act {action other agree} {next : action.Reply → Program α} {rest : other.Reply → Program α} :
      action.Lifts other agree →
      (∀ reply answer, agree reply answer → Lifts (next reply) (rest answer)) →
      Lifts (.act action next) (.act other rest)
  | attempt {action other agree} {next : Except Failure action.Reply → Program α}
      {rest : Except Failure other.Reply → Program α} :
      action.Lifts other agree →
      (∀ reply answer, agree reply answer → Lifts (next (.ok reply)) (rest (.ok answer))) →
      (∀ failure, failure.kind ≠ .recursion → Lifts (next (.error failure)) (rest (.error failure))) →
      (∀ failure, failure.kind = .recursion → GivesUp (next (.error failure))) →
      Lifts (.attempt action next) (.attempt other rest)

theorem GivesUp.cut {program : Program α} (givesUp : program.GivesUp) (machine : Machine)
    (state : State) : ∃ failure final, program.run machine state = .error failure final ∧ failure.Cuts := by
  induction givesUp generalizing state with
  | @fail failure deep => exact ⟨failure, state, rfl, .inl deep⟩
  | @attempt action next _ ih =>
      rw [Program.run, Run.bind_apply, Run.outcome]
      cases action.perform machine state with
      | ok reply middle => exact ih (.ok reply) middle
      | error failure middle =>
          dsimp only
          by_cases spent : failure.kind = .budget
          · rw [if_pos spent]
            exact ⟨failure, middle, rfl, .inr spent⟩
          · rw [if_neg spent]
            exact ih (.error failure) middle

end Program

/-- A host body that looks neither at the depth of its frame nor at the limit on depth. -/
def HostBody.Heedless (body : HostBody) : Prop :=
  ∀ frame other args returns, other.Shallower frame →
    (body frame args returns).Lifts (body other args returns)

inductive Activity.Lifts : Activity → Activity → Prop
  | call {target frame other args returns} :
      other.Shallower frame → Lifts (.call target frame args returns) (.call target other args returns)
  | body {target frame other args returns} :
      other.Shallower frame → Lifts (.body target frame args returns) (.body target other args returns)
  | step {frame other single} : other.Shallower frame → Lifts (.step frame single) (.step other single)
  | steps {frame other code} : other.Shallower frame → Lifts (.steps frame code) (.steps other code)
  | program {actions others} : actions.Lifts others → Lifts (.program actions) (.program others)
  | action {action other agree} : action.Lifts other agree → Lifts (.action action) (.action other)

namespace Moment

def Heedless (whole : Moment) : Prop :=
  ∀ ⦃budget id header frame args returns state⦄,
    whole.Reaches ⟨budget, .body (.host id header) frame args returns, state⟩ →
    (state.hostBody id).Heedless

theorem Heedless.part {whole part : Moment} (heedless : whole.Heedless) (starts : whole.Starts part) :
    part.Heedless :=
  fun _ _ _ _ _ _ _ reached => heedless (.inside starts reached)

/-- A moment that is not cut off goes the same way as another activity from its state under another limit
on depth, with every budget that is no smaller, where hosts may remember shallower frames. -/
def LastsAs (limit : Nat) (whole : Moment) (other : Activity) : Prop :=
  ∀ budget, whole.budget ≤ budget → ∀ {memories}, MemoriesShallower memories whole.state.hostMemories →
    Run.Lasts limit (· = ·) (whole.activity.run whole.budget whole.state)
      (other.run budget (whole.state.lifted limit memories))

section Bodies

variable {budget larger limit : Nat} {memories : Array Memory} {frame other : Frame} {args returns : Option Int}
  {state : State}

theorem enterClosure_lasts {scope : ScopeId} {parameters : List String}
    (shallower : other.Shallower frame) (alike : MemoriesShallower memories state.hostMemories)
    (raised : state.callLimit ≤ limit) :
    Run.Lasts limit (fun deeper inner => Frame.Shallower inner deeper)
      (enterClosure scope parameters frame state)
      (enterClosure scope parameters other (state.lifted limit memories)) := by
  have depth := shallower.depth
  rw [enterClosure_apply, enterClosure_apply, shallower.stack]
  by_cases deep : (state.callLimit : Int) < frame.depth + 1
  · rw [if_pos deep]
    exact .cut (.inl rfl)
  · have within : ¬ (limit : Int) < other.depth + 1 := by omega
    rw [if_neg deep, State.callLimit_lifted, State.operands_lifted, if_neg within]
    by_cases short : (state.operands frame.stack).length < parameters.length
    · rw [if_pos short, if_pos short]
      exact .fails alike
    · have same : state.withArguments scope parameters other = state.withArguments scope parameters frame := by
        rw [State.withArguments, State.withArguments, shallower.stack]
      rw [if_neg short, if_neg short, State.withArguments_lifted, same]
      refine .ends ?_ ⟨rfl, rfl, Int.add_le_add_right depth 1⟩
      rwa [State.hostMemories_withArguments]

theorem enterPromise_lasts {scope : Option ScopeId} (shallower : other.Shallower frame)
    (alike : MemoriesShallower memories state.hostMemories) (raised : state.callLimit ≤ limit) :
    Run.Lasts limit (fun deeper inner => Frame.Shallower inner deeper) (enterPromise scope frame state)
      (enterPromise scope other (state.lifted limit memories)) := by
  have depth := shallower.depth
  rw [enterPromise_apply, enterPromise_apply]
  by_cases deep : (state.callLimit : Int) < frame.depth + 1
  · rw [if_pos deep]
    exact .cut (.inl rfl)
  · have within : ¬ (limit : Int) < other.depth + 1 := by omega
    rw [if_neg deep, State.callLimit_lifted, if_neg within]
    exact .ends alike ⟨rfl, rfl, Int.add_le_add_right depth 1⟩

theorem within_lasts (enough : budget ≤ larger) {inner deeper : Frame} {code : List Step} {start : State}
    (alike : MemoriesShallower memories start.hostMemories)
    (nested : ∀ smaller, budget = smaller + 1 →
      LastsAs limit ⟨smaller, .steps deeper code, start⟩ (.steps inner code)) :
    Run.Lasts limit (· = ·) ((Machine.within budget).run deeper code start)
      ((Machine.within larger).run inner code (start.lifted limit memories)) := by
  cases budget with
  | zero => exact .cut (.inr rfl)
  | succ smaller =>
      cases larger with
      | zero => cases enough
      | succ larger => exact nested smaller rfl larger (Nat.le_of_succ_le_succ enough) alike

variable (shallower : other.Shallower frame) (enough : budget ≤ larger)
  (alike : MemoriesShallower memories state.hostMemories)
include shallower enough alike

theorem closure_lasts (raised : state.callLimit ≤ limit) {scope : ScopeId} {code : List Step}
    {parameters : List String}
    (nested : ∀ part lifted,
      Starts ⟨budget, .body (.closure scope code parameters) frame args returns, state⟩ part →
      part.activity.Lifts lifted → part.LastsAs limit lifted) :
    Run.Lasts limit (· = ·) (runClosure (.within budget) scope code parameters frame state)
      (runClosure (.within larger) scope code parameters other (state.lifted limit memories)) := by
  rw [runClosure, runClosure, shallower.stack]
  refine (enterClosure_lasts shallower alike raised).bind fun deeper inner start _ alike lower entered => ?_
  rw [lower.stack]
  refine Run.Lasts.bind (within_lasts enough alike fun smaller same => ?_) fun _ _ middle _ alike _ _ => ?_
  · subst same
    exact nested _ _ (.closure entered) (.steps lower)
  · exact ((blind_soleResult _ _).bind fun result => frame.stack.blind_push result).lasts alike

theorem promise_lasts (raised : state.callLimit ≤ limit) {id : PromiseId}
    (nested : ∀ part lifted, Starts ⟨budget, .body (.promise id) frame args returns, state⟩ part →
      part.activity.Lifts lifted → part.LastsAs limit lifted) :
    Run.Lasts limit (· = ·) (runPromise (.within budget) id frame state)
      (runPromise (.within larger) id other (state.lifted limit memories)) := by
  rw [runPromise, runPromise, Run.bind_of_ok (Run.get_apply state),
    Run.bind_of_ok (Run.get_apply (state.lifted limit memories)), State.promise_lifted, shallower.stack]
  cases present : (state.promise id).value with
  | some value => exact (frame.stack.blind_push value).lasts alike
  | none =>
      dsimp only
      refine Run.Lasts.bind ?_ fun value answer middle _ alike (same : value = answer) _ => ?_
      · rw [Promise.compute, Promise.compute]
        refine (enterPromise_lasts shallower alike raised).bind fun deeper inner start _ alike lower entered => ?_
        rw [lower.stack]
        refine Run.Lasts.bind (within_lasts enough alike fun smaller same => ?_) fun _ _ middle _ alike _ _ => ?_
        · subst same
          exact nested _ _ (.promise present entered) (.steps lower)
        · exact (blind_soleResult _ _).lasts alike
      · subst same
        exact (blind_store id value frame.stack).lasts alike

theorem force_lasts
    (nested : ∀ part lifted, Starts ⟨budget, .body .force frame args returns, state⟩ part →
      part.activity.Lifts lifted → part.LastsAs limit lifted) :
    Run.Lasts limit (· = ·) (runForce (.within budget) frame state)
      (runForce (.within larger) other (state.lifted limit memories)) := by
  rw [runForce, runForce, shallower.stack]
  refine frame.stack.blind_pop.lasts_bind alike fun argument start _ still popped => ?_
  refine (argument.blind_expect _ _).lasts_bind still fun payload reached _ kept expected => ?_
  have unchanged := (argument.reads_expect _ _).final_of_ok expected
  subst unchanged
  cases payload with
  | callable target =>
      cases budget with
      | zero => exact .cut (.inr rfl)
      | succ smaller =>
          cases larger with
          | zero => cases enough
          | succ larger =>
              exact nested _ _ (.force popped expected) (.call shallower) larger
                (Nat.le_of_succ_le_succ enough) kept
  | _ => exact .ends kept rfl

theorem step_lasts {step : Step}
    (nested : ∀ part lifted, Starts ⟨budget, .step frame step, state⟩ part →
      part.activity.Lifts lifted → part.LastsAs limit lifted) :
    Run.Lasts limit (· = ·) (step.execute (Callable.callWithin budget) frame state)
      (step.execute (Callable.callWithin larger) other (state.lifted limit memories)) := by
  cases step with
  | push value =>
      rw [Step.execute, Step.execute, shallower.stack]
      exact (frame.stack.blind_push value).lasts alike
  | note text => exact .ends alike rfl
  | get name =>
      rw [Step.execute, Step.execute, shallower.stack, shallower.scope]
      refine (frame.scope.blind_lookup name).lasts_bind alike fun binding middle _ still found => ?_
      obtain ⟨bound, rfl⟩ := ScopeId.lookup_eq_ok found
      cases binding with
      | callable target => exact nested _ _ (.got bound) (.call shallower) larger enough still
      | value value => exact (frame.stack.blind_push value).lasts still
  | call name args returns =>
      rw [Step.execute, Step.execute, shallower.scope]
      refine (frame.scope.blind_lookup name).lasts_bind alike fun binding middle _ still found => ?_
      obtain ⟨bound, rfl⟩ := ScopeId.lookup_eq_ok found
      refine (binding.blind_callee name).lasts_bind still fun target reached _ kept resolved => ?_
      have unchanged := (binding.reads_callee name).final_of_ok resolved
      subst unchanged
      exact nested _ _ (.named bound resolved) (.call shallower) larger enough kept

theorem call_lasts {target : Callable}
    (nested : ∀ part lifted, Starts ⟨budget, .call target frame args returns, state⟩ part →
      part.activity.Lifts lifted → part.LastsAs limit lifted) :
    Run.Lasts limit (· = ·) (Callable.callWithin budget target frame args returns state)
      (Callable.callWithin larger target other args returns (state.lifted limit memories)) := by
  have body {memories : Array Memory} (alike : MemoriesShallower memories state.hostMemories)
      (admitted : target.Admits frame args returns state) :
      Run.Lasts limit (· = ·) (target.runBody (.within budget) frame args returns state)
        (target.runBody (.within larger) other args returns (state.lifted limit memories)) :=
    nested _ _ (.body admitted) (.body shallower) larger enough alike
  rw [Callable.callWithin_eq, Callable.callWithin_eq, Callable.callOnce, Callable.callOnce]
  cases declared : target.signature? with
  | none => exact body alike (Callable.admits_of_signatureless declared)
  | some signature =>
      dsimp only
      refine (blind_checkCounts _ _ _ _).lasts_bind alike fun _ start _ still checked => ?_
      obtain ⟨accepted, rfl⟩ := checkCounts_eq_ok checked
      rw [requireOperands, requireOperands, shallower.stack]
      refine (blind_requireOperands _ _ _).lasts_bind still fun before start _ kept counted => ?_
      obtain ⟨present, _, rfl⟩ := requireOperands_eq_ok counted
      have admitted := Callable.admits_of_accepts declared accepted present
      refine Run.Lasts.bind (body kept admitted) fun _ _ _ _ alike _ _ => ?_
      rw [requireContract, requireContract, shallower.stack]
      exact (blind_requireContract _ _ _ _).lasts alike

omit shallower

theorem perform_lasts {action replaced : Action} {agree : action.Reply → replaced.Reply → Prop}
    (lifts : action.Lifts replaced agree)
    (nested : ∀ part lifted, Starts ⟨budget, .action action, state⟩ part →
      part.activity.Lifts lifted → part.LastsAs limit lifted) :
    Run.Lasts limit agree (action.perform (.within budget) state)
      (replaced.perform (.within larger) (state.lifted limit memories)) := by
  cases lifts with
  | direct direct apart =>
      rw [direct.perform_eq (.within larger) (.within budget)]
      exact (Action.blind_perform direct apart _).lasts alike
  | count => exact Run.lasts_count alike _
  | keep shown => exact Run.lasts_keep alike _ shown
  | kept => exact Run.lasts_kept alike _ _ _
  | call shallower =>
      cases budget with
      | zero => exact .cut (.inr rfl)
      | succ smaller =>
          cases larger with
          | zero => cases enough
          | succ larger =>
              exact nested _ _ .asked (.call shallower) larger (Nat.le_of_succ_le_succ enough) alike
  | run shallower =>
      refine within_lasts enough alike fun smaller same => ?_
      subst same
      exact nested _ _ .ran (.steps shallower)

-- The activity of an action drops the reply, which a call and a run of code do not have.
theorem perform_lasts_of_discarded {action replaced : Action} {agree : action.Reply → replaced.Reply → Prop}
    (lifts : action.Lifts replaced agree)
    (discarded : LastsAs limit ⟨budget, .action action, state⟩ (.action replaced)) :
    Run.Lasts limit agree (action.perform (.within budget) state)
      (replaced.perform (.within larger) (state.lifted limit memories)) := by
  have lasts := discarded larger enough alike
  cases lifts with
  | direct direct apart =>
      rw [direct.perform_eq (.within larger) (.within budget)]
      exact (Action.blind_perform direct apart _).lasts alike
  | count => exact Run.lasts_count alike _
  | keep shown => exact Run.lasts_keep alike _ shown
  | kept => exact Run.lasts_kept alike _ _ _
  | call shallower => rwa [Activity.run, Activity.run, Run.discarded_unit, Run.discarded_unit] at lasts
  | run shallower => rwa [Activity.run, Activity.run, Run.discarded_unit, Run.discarded_unit] at lasts

theorem program_lasts {actions others : Program Unit} (lifts : actions.Lifts others)
    (nested : ∀ part lifted, Starts ⟨budget, .program actions, state⟩ part →
      part.activity.Lifts lifted → part.LastsAs limit lifted) :
    Run.Lasts limit (· = ·) (actions.run (.within budget) state)
      (others.run (.within larger) (state.lifted limit memories)) := by
  cases lifts with
  | done result => exact .ends alike rfl
  | fail failure => exact .fails alike
  | act same later =>
      have performs := perform_lasts_of_discarded enough alike same (nested _ _ .acts (.action same))
      exact performs.bind fun reply answer middle _ alike agree performed =>
        nested _ _ (.next performed) (.program (later reply answer agree)) larger enough alike
  | @attempt action replaced agree next rest same ended failed deep =>
      have performs := perform_lasts_of_discarded enough alike same (nested _ _ .attempts (.action same))
      rw [Program.run, Program.run]
      generalize answer : replaced.perform (.within larger) (state.lifted limit memories) = answered at performs
      cases outcome : action.perform (.within budget) state with
      | ok reply middle =>
          rw [outcome] at performs
          cases performs with
          | ends alike agrees =>
              have attempted := Run.outcome_of_ok outcome
              rw [Run.bind_of_ok attempted, Run.bind_of_ok (Run.outcome_of_ok answer)]
              exact nested _ _ (.goesOn attempted) (.program (ended _ _ agrees)) larger enough alike
      | error failure middle =>
          by_cases spent : failure.kind = .budget
          · rw [Run.bind_of_error (Run.outcome_of_spent outcome spent)]
            exact .cut (.inr spent)
          · have attempted := Run.outcome_of_error outcome spent
            rw [Run.bind_of_ok attempted]
            by_cases tooDeep : failure.kind = .recursion
            · obtain ⟨last, final, gaveUp, cuts⟩ := (deep failure tooDeep).cut (.within budget) middle
              rw [gaveUp]
              exact .cut cuts
            · rw [outcome] at performs
              cases performs with
              | cut cuts => exact absurd cuts (not_or.mpr ⟨tooDeep, spent⟩)
              | fails alike =>
                  rw [Run.bind_of_ok (Run.outcome_of_error answer spent)]
                  exact nested _ _ (.goesOn attempted) (.program (failed failure tooDeep)) larger enough alike

end Bodies

theorem run_lasts {limit : Nat} (whole : Moment) (other : Activity) (heedless : whole.Heedless)
    (lifts : whole.activity.Lifts other) (raised : whole.state.callLimit ≤ limit) :
    whole.LastsAs limit other := by
  induction whole using Moment.induction generalizing other with
  | whole whole ih =>
  have nested (part : Moment) (lifted : Activity) (starts : whole.Starts part)
      (alike : part.activity.Lifts lifted) : part.LastsAs limit lifted :=
    ih part starts lifted (heedless.part starts) alike ((State.Grows.of_starts starts).callLimit ▸ raised)
  obtain ⟨budget, activity, state⟩ := whole
  intro larger enough memories alike
  cases lifts with
  | call shallower => exact call_lasts shallower enough alike nested
  | @body target frame other args returns shallower =>
      cases target with
      | closure scope code parameters => exact closure_lasts shallower enough alike raised nested
      | promise id => exact promise_lasts shallower enough alike raised nested
      | makeClosure domain =>
          have same : runMakeClosure domain other = runMakeClosure domain frame := by
            rw [runMakeClosure, runMakeClosure, shallower.stack, shallower.scope]
          rw [Activity.run, Activity.run, Callable.runBody, Callable.runBody, same]
          exact (blind_runMakeClosure domain frame).lasts alike
      | delay =>
          have same : runDelay other = runDelay frame := by
            rw [runDelay, runDelay, shallower.stack, shallower.scope]
          rw [Activity.run, Activity.run, Callable.runBody, Callable.runBody, same]
          exact (blind_runDelay frame).lasts alike
      | force => exact force_lasts shallower enough alike nested
      | isPromise =>
          have same : runIsPromise other = runIsPromise frame := by
            rw [runIsPromise, runIsPromise, shallower.stack]
          rw [Activity.run, Activity.run, Callable.runBody, Callable.runBody, same]
          exact (blind_runIsPromise frame).lasts alike
      | host id header =>
          exact nested _ _ .host (.program (heedless (.here _) _ _ _ _ shallower)) larger enough alike
  | step shallower => exact step_lasts shallower enough alike nested
  | @steps frame other code shallower =>
      cases code with
      | nil => exact .ends alike rfl
      | cons step rest =>
          exact Run.Lasts.bind (nested _ _ .first (.step shallower) larger enough alike)
            fun _ _ middle _ alike _ executed => nested _ _ (.rest executed) (.steps shallower) larger enough alike
  | program same => exact program_lasts enough alike same nested
  | action same => exact (perform_lasts enough alike same nested).bind fun _ _ _ _ alike _ _ => .ends alike rfl

end Moment

namespace Program

variable {α β : Type}

theorem GivesUp.bind {program : Program α} (givesUp : program.GivesUp) (next : α → Program β) :
    (program >>= next).GivesUp := by
  induction givesUp with
  | fail deep => exact .fail deep
  | attempt _ ih => exact .attempt ih

theorem Lifts.bind {program other : Program α} {next rest : α → Program β} (first : program.Lifts other)
    (later : ∀ result, (next result).Lifts (rest result)) : (program >>= next).Lifts (other >>= rest) := by
  induction first with
  | done result => exact later result
  | fail failure => exact .fail failure
  | act lifts _ ih => exact .act lifts ih
  | attempt lifts _ _ deep ended failed =>
      exact .attempt lifts ended failed fun failure tooDeep => (deep failure tooDeep).bind _

theorem lifts_perform {action : Action} (direct : action.Direct) (apart : action.host? = none) :
    (perform action).Lifts (perform action) :=
  .act (.direct direct apart) fun _ _ same => same ▸ .done _

theorem lifts_foldlM {act : β → α → Program β} {items : List α} {first : β}
    (each : ∀ result item, (act result item).Lifts (act result item)) :
    (items.foldlM act first).Lifts (items.foldlM act first) := by
  induction items generalizing first with
  | nil => exact .done first
  | cons item rest ih =>
      rw [List.foldlM_cons]
      exact (each first item).bind fun _ => ih

theorem lifts_create {domain : DomainId} {tag : Tag} {payload : Payload} :
    (create domain tag payload).Lifts (create domain tag payload) :=
  lifts_perform (by rfl) rfl

theorem lifts_expect {value : Value} {tag : Tag} {description : String} :
    (expect value tag description).Lifts (expect value tag description) :=
  lifts_perform (by rfl) rfl

variable {frame other : Frame} (shallower : other.Shallower frame)
include shallower

theorem lifts_pop : (pop frame).Lifts (pop other) := by
  rw [pop, pop, shallower.stack]
  exact lifts_perform (by rfl) rfl

theorem lifts_popMany {count : Int} : (popMany frame count).Lifts (popMany other count) := by
  rw [popMany, popMany, shallower.stack]
  exact lifts_perform (by rfl) rfl

theorem lifts_push {value : Value} : (push frame value).Lifts (push other value) := by
  rw [push, push, shallower.stack]
  exact lifts_perform (by rfl) rfl

theorem lifts_unary {apply : Value → Program Value} (applies : ∀ value, (apply value).Lifts (apply value)) :
    (unary frame apply).Lifts (unary other apply) :=
  (lifts_pop shallower).bind fun value => (applies value).bind fun _ => lifts_push shallower

theorem lifts_binary {apply : Value → Value → Program Value}
    (applies : ∀ left right, (apply left right).Lifts (apply left right)) :
    (binary frame apply).Lifts (binary other apply) := by
  refine (lifts_pop shallower).bind fun right => (lifts_pop shallower).bind fun left => ?_
  exact (applies left right).bind fun _ => lifts_push shallower

theorem lifts_call {args returns : Int} {payload : Payload} :
    (call frame args returns payload).Lifts (call other args returns payload) := by
  cases payload with
  | callable target => exact .act (.call shallower) fun _ _ _ => .done _
  | _ => exact .done _

end Program

namespace LibraryHost

open Program

section Shapes

variable {frame other : Frame} (shallower : other.Shallower frame)
include shallower

theorem lifts_onIntegers {tag : Tag} {apply : Int → Int → Payload} :
    (onIntegers frame tag apply).Lifts (onIntegers other tag apply) :=
  lifts_binary shallower fun _ _ => lifts_expect.bind fun _ => lifts_expect.bind fun _ => lifts_create

theorem lifts_onNamed {description : String} {act : ScopeId → String → Binding → Program Unit}
    (acts : ∀ scope name binding, (act scope name binding).Lifts (act scope name binding)) :
    (onNamed frame description act).Lifts (onNamed other description act) := by
  rw [onNamed, onNamed, shallower.scope]
  refine (lifts_popMany shallower).bind fun values => ?_
  split
  · exact lifts_expect.bind fun _ => (acts _ _ _).bind fun _ => lifts_push shallower
  · exact .done ()

end Shapes

theorem heedless (host : LibraryHost) (domain : DomainId) (self : HostId) (apart : host ≠ .depth) :
    (host.body domain self).Heedless := by
  intro frame other args returns shallower
  cases host with
  | add =>
      rw [body, body]
      exact lifts_onIntegers shallower
  | sub =>
      rw [body, body]
      exact lifts_onIntegers shallower
  | mul =>
      rw [body, body]
      exact lifts_onIntegers shallower
  | lt =>
      rw [body, body]
      exact lifts_onIntegers shallower
  | concat =>
      exact lifts_binary shallower fun _ _ =>
        lifts_expect.bind fun _ => lifts_expect.bind fun _ => lifts_create
  | cons => exact lifts_binary shallower fun _ _ => lifts_create
  | car =>
      refine lifts_unary shallower fun value => lifts_expect.bind fun payload => ?_
      split <;> exact .done _
  | cdr =>
      refine lifts_unary shallower fun value => lifts_expect.bind fun payload => ?_
      split <;> exact .done _
  | display => exact lifts_unary shallower fun _ => (lifts_perform (by rfl) rfl).bind fun _ => lifts_create
  | not => exact lifts_unary shallower fun _ => lifts_expect.bind fun _ => lifts_create
  | tick =>
      refine Lifts.bind (.act .count fun _ _ same => same ▸ .done _) fun count => ?_
      exact lifts_create.bind fun _ => lifts_push shallower
  | depth => exact absurd rfl apart
  | scope =>
      rw [body, body, shallower.scope]
      refine (lifts_perform (by rfl) rfl).bind fun text => ?_
      exact lifts_create.bind fun _ => lifts_push shallower
  | dup =>
      refine (lifts_pop shallower).bind fun value => ?_
      exact (lifts_push shallower).bind fun _ => lifts_push shallower
  | drop => exact (lifts_pop shallower).bind fun _ => .done ()
  | branch =>
      refine (lifts_popMany shallower).bind fun values => ?_
      split
      · exact lifts_expect.bind fun _ => lifts_expect.bind fun _ => lifts_call shallower
      · exact .done ()
  | eval =>
      refine (lifts_pop shallower).bind fun value => lifts_expect.bind fun code => ?_
      exact .act (.run shallower) fun _ _ _ => .done _
  | apply =>
      exact (lifts_pop shallower).bind fun _ => lifts_expect.bind fun _ => lifts_call shallower
  | bind =>
      rw [body, body]
      exact lifts_onNamed shallower fun _ _ _ => lifts_perform (by rfl) rfl
  | assign =>
      rw [body, body]
      exact lifts_onNamed shallower fun _ _ _ => lifts_perform (by rfl) rfl
  | list =>
      refine (lifts_popMany shallower).bind fun values => Lifts.bind ?_ fun _ => lifts_push shallower
      refine (lifts_perform (by rfl) rfl).bind fun null => ?_
      exact lifts_foldlM fun _ _ => lifts_create

end LibraryHost

theorem Moment.heedless_of_hosts {whole : Moment} (each : ∀ body ∈ whole.state.hosts, HostBody.Heedless body) :
    whole.Heedless := by
  intro budget id header frame args returns state reached
  rw [State.hostBody, (State.Grows.of_reaches reached).hosts]
  cases present : whole.state.hosts[id.index]? with
  | none => exact fun _ _ _ _ _ => .done ()
  | some body => exact each body (Array.mem_of_getElem? present)

/-- Unless its depth ends a run, or a want of budget, code ends alike on each shallower frame and under each higher
limit, but for the frames that hosts have kept, if hosts look neither at the depth nor at the limit and give up after
what was cut off for its depth. -/
theorem depth_limit_only_cuts_off (frame other : Frame) (code : List Step) (state : State) (limit : Nat)
    (shallower : other.Shallower frame) (raised : state.callLimit ≤ limit)
    (heedless : (Moment.ofCode frame code state).Heedless) :
    (∀ final, runCode frame code state = .ok () final →
      ∃ memories, MemoriesShallower memories final.hostMemories ∧
        runCode other code { state with callLimit := limit } = .ok () (final.lifted limit memories)) ∧
    ∀ failure final, runCode frame code state = .error failure final →
      failure.kind ≠ .recursion → failure.kind ≠ .budget →
      ∃ memories, MemoriesShallower memories final.hostMemories ∧
        runCode other code { state with callLimit := limit } = .error failure (final.lifted limit memories) := by
  have enough : callBudget state.callLimit frame.depth ≤ callBudget limit other.depth := by
    have depth := shallower.depth
    simp only [callBudget]
    omega
  have lasts : Run.Lasts limit (· = ·) (runCode frame code state)
      (runCode other code (state.lifted limit state.hostMemories)) := by
    rw [runCode_apply, runCode_apply]
    exact Moment.run_lasts (Moment.ofCode frame code state) _ heedless (.steps shallower) raised _ enough (.refl _)
  rw [State.lifted] at lasts
  constructor
  · intro final ran
    rw [ran] at lasts
    generalize runCode other code { state with callLimit := limit } = later at lasts ⊢
    cases lasts with
    | ends alike same => exact ⟨_, alike, rfl⟩
  · intro failure final failed shallow complete
    rw [failed] at lasts
    generalize runCode other code { state with callLimit := limit } = later at lasts ⊢
    cases lasts with
    | cut cuts => exact absurd cuts (not_or.mpr ⟨shallow, complete⟩)
    | fails alike => exact ⟨_, alike, rfl⟩

def doublingCode : List Step :=
  [.push aNumber, .call "double" (some 1) (some 1)]

theorem depth_limit_only_cuts_off_when_adding :
    ∃ final memories, runCode ⟨⟨0⟩, ⟨0⟩, 100⟩ doublingCode selfAdding = .ok () final ∧
      MemoriesShallower memories final.hostMemories ∧
      runCode ⟨⟨0⟩, ⟨0⟩, 0⟩ doublingCode { selfAdding with callLimit := 200 } = .ok () (final.lifted 200 memories) := by
  have heedless : (Moment.ofCode ⟨⟨0⟩, ⟨0⟩, 100⟩ doublingCode selfAdding).Heedless := by
    refine Moment.heedless_of_hosts fun body member => ?_
    have same : body = LibraryHost.add.body ⟨0⟩ ⟨0⟩ := by
      simpa [Moment.ofCode, selfAdding] using member
    exact same ▸ LibraryHost.add.heedless ⟨0⟩ ⟨0⟩ (by decide)
  have ran : runCode ⟨⟨0⟩, ⟨0⟩, 100⟩ doublingCode selfAdding = .ok () selfAdded.after := rfl
  obtain ⟨memories, shallower, same⟩ := (depth_limit_only_cuts_off ⟨⟨0⟩, ⟨0⟩, 100⟩ ⟨⟨0⟩, ⟨0⟩, 0⟩ doublingCode selfAdding
    200 ⟨rfl, rfl, by decide⟩ (by decide) heedless).1 _ ran
  exact ⟨_, memories, ran, shallower, same⟩

def recoveringBody : HostBody := fun frame _ _ =>
  .attempt (.call (.closure ⟨0⟩ [.push aNumber] []) frame (some 0) (some 1)) fun
    | .ok _ => .done ()
    | .error _ => Program.push frame ⟨⟨0⟩, .null, .null true, 0⟩

def recovering : State :=
  { State.empty 1 with
    domains := #[⟨standardNames, ⟨⟨0⟩, .null, .null true, 0⟩⟩]
    scopes := #[⟨[("recover", .callable (.host ⟨0⟩ ⟨"recover", some ⟨0, 1⟩⟩))], none⟩]
    operandStacks := #[[]]
    hosts := #[recoveringBody]
    hostMemories := #[.empty] }

/-- The host goes on after its call was cut off, so a higher limit changes what it leaves. -/
theorem recovered_cutoff_depends_on_limit :
    let run := runCode ⟨⟨0⟩, ⟨0⟩, 1⟩ [.get "recover"]
    let raised := { recovering with callLimit := 2 }
    run.failure? recovering = none ∧ run.failure? raised = none ∧
      ((run.after recovering).operands ⟨0⟩).map Value.tag = [.null] ∧
      ((run.after raised).operands ⟨0⟩).map Value.tag = [.int] := by
  decide +kernel

end LazyStack
