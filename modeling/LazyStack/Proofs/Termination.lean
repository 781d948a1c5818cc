import LazyStack.Proofs.Budget
import LazyStack.Proofs.RunFailure
import LazyStack.Proofs.CodeLength
import LazyStack.Proofs.Library

/-!
Termination. Where hosts neither call a callable nor run code, nothing ends for want of budget: a body that
nests uses up a level, or it forces, and then what it calls does not force. So a budget of two for each
level that is left, and one more, is enough, and a run ends well or with an error of the calculus.
-/

namespace LazyStack

def Callable.forcing : Callable → Nat
  | .force => 1
  | _ => 0

namespace Moment

/-- The budget that is enough for a moment. Forcing cannot be asked for without operands. -/
def need : Moment → Nat
  | ⟨_, .call target frame args _, state⟩ =>
      2 * frame.room state.callLimit + if args = some 0 then 0 else target.forcing
  | ⟨_, .body target frame _ _, state⟩ => 2 * frame.room state.callLimit + target.forcing
  | ⟨_, .step frame _, state⟩ => 2 * frame.room state.callLimit + 1
  | ⟨_, .steps frame _, state⟩ => 2 * frame.room state.callLimit + 1
  | ⟨_, .program _, _⟩ => 0
  | ⟨_, .action _, _⟩ => 0

/-- A host raises a failure in the course of a moment. -/
def Raises (whole : Moment) (failure : Failure) : Prop :=
  ∃ budget state, whole.Reaches ⟨budget, .program (.fail failure), state⟩

theorem Raises.of_part {whole inner : Moment} {failure : Failure} (starts : whole.Starts inner)
    (raises : inner.Raises failure) : whole.Raises failure := by
  obtain ⟨budget, state, reached⟩ := raises
  exact ⟨budget, state, .inside starts reached⟩

theorem need_of_entered {frame caller : Frame} {state start : State}
    (limit : start.callLimit = state.callLimit) (deeper : frame.depth = caller.depth + 1)
    (shallow : caller.depth + 1 ≤ (state.callLimit : Int)) :
    2 * frame.room start.callLimit + 1 < 2 * caller.room state.callLimit := by
  rw [Frame.room, Frame.room, deeper, limit]
  omega

theorem forcing_le_one (target : Callable) : target.forcing ≤ 1 := by
  cases target <;> simp [Callable.forcing]

theorem forcing_of_admits {target : Callable} {frame : Frame} {args returns : Option Int} {state : State}
    (admitted : target.Admits frame args returns state) (bare : args = some 0) : target.forcing = 0 := by
  cases target with
  | force =>
      obtain ⟨accepted, _⟩ := admitted ⟨1, 1⟩ rfl
      cases accepted.1 0 bare
  | _ => rfl

section Supplied

variable {whole inner : Moment}

theorem Starts.supplied (tame : whole.Tame) (supplied : whole.need ≤ whole.budget)
    (starts : whole.Starts inner) : inner.need ≤ inner.budget := by
  have limit := (State.Grows.of_starts starts).callLimit
  cases starts with
  | @body budget target frame args returns state admitted =>
      simp only [need] at supplied ⊢
      by_cases bare : args = some 0
      · rw [if_pos bare] at supplied
        rw [forcing_of_admits admitted bare]
        exact supplied
      · rw [if_neg bare] at supplied
        exact supplied
  | closure entered =>
      obtain ⟨deeper, shallow⟩ := enterClosure_deeper entered
      have less := need_of_entered limit deeper shallow
      simp only [need] at less supplied ⊢
      omega
  | promise pending entered =>
      obtain ⟨deeper, shallow⟩ := enterPromise_deeper entered
      have less := need_of_entered limit deeper shallow
      simp only [need] at less supplied ⊢
      omega
  | force popped expected =>
      dsimp only at limit
      rw [need, Callable.forcing] at supplied
      rw [need, if_pos rfl, limit]
      dsimp only at supplied ⊢
      omega
  | host => exact Nat.zero_le _
  | @got budget frame name state target bound =>
      have once := forcing_le_one target
      simp only [need] at supplied ⊢
      rw [if_pos trivial]
      omega
  | @named budget frame name args returns state binding target bound resolved =>
      have once := forcing_le_one target
      simp only [need] at supplied ⊢
      split <;> omega
  | first => exact supplied
  | rest executed =>
      dsimp only at limit
      simp only [need] at supplied ⊢
      rw [limit]
      exact supplied
  | asked =>
      obtain ⟨_, _, direct⟩ := tame.minds
      cases direct
  | ran =>
      obtain ⟨_, _, direct⟩ := tame.minds
      cases direct
  | acts => exact Nat.zero_le _
  | attempts => exact Nat.zero_le _
  | next performed => exact Nat.zero_le _
  | goesOn attempted => exact Nat.zero_le _

end Supplied

section Calm

variable {raised : Failure → Prop} {budget : Nat} {frame : Frame} {args returns : Option Int}
  {state : State}

theorem calm_closure {scope : ScopeId} {code : List Step} {parameters : List String}
    (nested : ∀ part,
      Starts ⟨budget, .body (.closure scope code parameters) frame args returns, state⟩ part →
      (part.activity.run part.budget).Calm raised part.state)
    (supplied : 2 * frame.room state.callLimit ≤ budget) :
    (runClosure (.within budget) scope code parameters frame).Calm raised state := by
  rw [runClosure]
  refine (calm_enterClosure _ _ _).bind fun inner start entered => ?_
  cases budget with
  | zero =>
      obtain ⟨_, shallow⟩ := enterClosure_deeper entered
      rw [Frame.room] at supplied
      omega
  | succ smaller =>
      refine (nested _ (.closure entered)).bind fun _ _ _ => ?_
      exact (calm_soleResult _ fun _ => by rfl).bind fun result _ _ => frame.stack.calm_push result

theorem calm_promise {id : PromiseId}
    (nested : ∀ part, Starts ⟨budget, .body (.promise id) frame args returns, state⟩ part →
      (part.activity.run part.budget).Calm raised part.state)
    (supplied : 2 * frame.room state.callLimit ≤ budget) :
    (runPromise (.within budget) id frame).Calm raised state := by
  cases present : (state.promise id).value with
  | some value =>
      exact Run.calm_of_eq (runPromise_of_value present) (frame.stack.calm_push value)
  | none =>
      refine Run.calm_of_eq (runPromise_of_pending present) (Run.Calm.bind ?_ fun value _ _ => ?_)
      · rw [Promise.compute]
        refine (calm_enterPromise _ _).bind fun inner start entered => ?_
        cases budget with
        | zero =>
            obtain ⟨_, shallow⟩ := enterPromise_deeper entered
            rw [Frame.room] at supplied
            omega
        | succ smaller =>
            exact (nested _ (.promise present entered)).bind fun _ _ _ => calm_soleResult _ fun _ => rfl
      · exact Run.calm_of_ok rfl

end Calm

theorem calm {raised : Failure → Prop} (whole : Moment) (tame : whole.Tame)
    (raises : ∀ failure, whole.Raises failure → raised failure) (supplied : whole.need ≤ whole.budget) :
    (whole.activity.run whole.budget).Calm raised whole.state := by
  induction whole using Moment.induction with
  | whole whole ih =>
  have nested (part : Moment) (starts : whole.Starts part) :
      (part.activity.run part.budget).Calm raised part.state :=
    ih part starts (tame.part starts)
      (fun failure raisesInside => raises failure (.of_part starts raisesInside))
      (starts.supplied tame supplied)
  obtain ⟨budget, activity, state⟩ := whole
  cases activity with
  | call target frame args returns =>
      rw [Activity.run, Callable.callWithin_eq]
      exact Callable.calm_callOnce fun admitted => nested _ (.body admitted)
  | body target frame args returns =>
      cases target with
      | closure scope code parameters => exact calm_closure nested supplied
      | promise id => exact calm_promise nested supplied
      | makeClosure domain =>
          exact (Run.Calm.compositionalOn frame.stack).makeClosure (fun event _ => Run.calm_record event) domain
      | delay => exact (Run.Calm.compositionalOn frame.stack).delay
      | force =>
          refine (Run.Calm.compositionalOn frame.stack).force (fun none => ?_) nested
          exact absurd none (Nat.ne_of_gt (Nat.lt_of_lt_of_le (Nat.succ_pos _) supplied))
      | isPromise => exact (Run.Calm.compositionalOn frame.stack).isPromise
      | host id header =>
          exact nested ⟨budget, .program (state.hostBody id frame args returns), state⟩ .host
  | step frame step => exact Run.Calm.compositional.step (fun value => frame.stack.calm_push value) nested
  | steps frame code =>
      cases code with
      | nil => exact Run.calm_of_ok rfl
      | cons step rest =>
          exact Run.Calm.bind (nested _ .first) fun _ middle executed => nested _ (.rest executed)
  | program actions =>
      cases actions with
      | done result => exact Run.calm_of_ok rfl
      | fail failure => exact Run.calm_throw (raises failure ⟨budget, state, .here _⟩)
      | act action next =>
          exact Run.Calm.bind (nested _ .acts).of_discarded fun reply middle performed =>
            nested _ (.next performed)
      | attempt action next =>
          exact Run.Calm.bind (nested _ .attempts).of_discarded.outcome fun outcome middle attempted =>
            nested _ (.goesOn attempted)
  | action action =>
      obtain ⟨_, _, direct⟩ := tame.minds
      exact (action.calm_perform direct _).bind fun _ _ _ => Run.calm_of_ok rfl

def ofCode (frame : Frame) (code : List Step) (state : State) : Moment :=
  ⟨callBudget state.callLimit frame.depth, .steps frame code, state⟩

theorem ofCode_supplied (frame : Frame) (code : List Step) (state : State) :
    (ofCode frame code state).need ≤ (ofCode frame code state).budget := by
  simp only [ofCode, need, Frame.room, callBudget, hostNesting]
  omega

theorem Takes.le_stepBound {frame : Frame} {code : List Step} {state : State} {count longest : Nat}
    (taken : (ofCode frame code state).Takes count) (tame : (ofCode frame code state).Tame)
    (short : (ofCode frame code state).CodesWithin longest) :
    count ≤ stepBound longest (frame.room state.callLimit + 1) :=
  Nat.le_trans (taken.le_allowance tame short) (Nat.mul_le_mul_right _ (short (.here _)))

theorem not_raises_of_hostless {whole : Moment} {failure : Failure} (hostless : whole.state.hosts = #[])
    (apart : ∀ actions, whole.activity = .program actions → actions = .done ()) :
    ¬ whole.Raises failure := by
  rintro ⟨budget, state, reached⟩
  generalize same : (⟨budget, .program (.fail failure), state⟩ : Moment) = inner at reached
  induction reached with
  | here moment =>
      subst same
      cases apart _ rfl
  | @inside whole part inner starts deeper ih =>
      refine ih ?_ (fun actions shape => ?_) same
      · rw [(State.Grows.of_starts starts).hosts, hostless]
      · cases starts with
        | host =>
            cases shape
            rw [State.hostBody, hostless]
            rfl
        | next => cases apart _ rfl
        | goesOn => cases apart _ rfl
        | _ => cases shape

end Moment

/-- Where hosts run no code, a run of any code ends: well, with an error of the calculus, with what a host has raised,
or where what a message shows has no text. The steps that it executes are bounded by the levels that the limit on
depth leaves and by the length of the longest code. -/
theorem evaluation_terminates (frame : Frame) (code : List Step) (state : State)
    (direct : (Moment.ofCode frame code state).HostsObey fun _ action _ => action.Direct)
    (ends : ∀ failure, (Moment.ofCode frame code state).Raises failure → failure.kind ≠ .budget) :
    let whole := Moment.ofCode frame code state
    ((∃ final, runCode frame code state = .ok () final) ∨
      ∃ failure final, runCode frame code state = .error failure final ∧
        (failure.Calc ∨ (∃ cause, failure = .unwritable cause) ∨ whole.Raises failure)) ∧
    (∀ budget, whole.budget ≤ budget →
      (Activity.steps frame code).run budget state = runCode frame code state) ∧
    (∃ longest, whole.CodesWithin longest) ∧
    ∃ count, whole.Takes count ∧ (∀ other, whole.Takes other → other = count) ∧
      ∀ longest, whole.CodesWithin longest ∨
          whole.HostsObey (fun _ => Action.CodesUpTo longest) ∧ state.CodesUpTo longest ∧
            codeLongest code ≤ longest →
        count ≤ stepBound longest (frame.room state.callLimit + 1) := by
  intro whole
  have tame : whole.Tame := ⟨direct, trivial⟩
  have calm : (whole.activity.run whole.budget).Calm whole.Raises state :=
    whole.calm tame (fun _ raises => raises) (Moment.ofCode_supplied frame code state)
  have same : runCode frame code state = whole.activity.run whole.budget state :=
    runCode_apply frame code state
  have complete : ¬ (whole.activity.run whole.budget).Wants state := by
    rintro ⟨failure, final, failed, wants⟩
    rcases calm failure final failed with known | raised
    · exact known.kind_ne_budget wants
    · exact ends failure raised wants
  refine ⟨?_, fun budget enough => (Moment.run_of_le enough complete).trans same.symm,
    whole.exists_codesWithin, ?_⟩
  · rw [same]
    cases outcome : whole.activity.run whole.budget state with
    | ok result final => exact .inl ⟨final, rfl⟩
    | error failure final => exact .inr ⟨failure, final, rfl, or_assoc.mp (calm failure final outcome)⟩
  · obtain ⟨count, taken⟩ := whole.exists_takes
    refine ⟨count, taken, fun other again => again.unique taken, ?_⟩
    rintro longest (short | ⟨brings, held, short⟩)
    · exact taken.le_stepBound tame short
    · exact taken.le_stepBound tame (Moment.codesWithin_of_codesUpTo ⟨brings, trivial⟩ held short)

theorem runCode_of_run {frame : Frame} {code : List Step} {state final : State} {budget : Nat} {failure : Failure}
    (enough : budget ≤ callBudget state.callLimit frame.depth)
    (failed : (Activity.steps frame code).run budget state = .error failure final)
    (complete : failure.kind ≠ .budget) : runCode frame code state = .error failure final := by
  rw [runCode_apply, Moment.run_of_le enough ?_, failed]
  rintro ⟨other, reached, again, wants⟩
  cases failed.symm.trans again
  exact complete wants

def firstFrame : Frame :=
  ⟨⟨0⟩, ⟨0⟩, 0⟩

def loopCall : List Step :=
  [.call "loop" (some 0) (some 1)]

def looping (limit : Nat) : State :=
  { State.empty limit with
    scopes := #[⟨[("loop", .callable (.closure ⟨0⟩ loopCall []))], none⟩]
    operandStacks := #[[]] }

theorem looping_codesUpTo (limit : Nat) : (looping limit).CodesUpTo 1 where
  bindings {scope name binding} present := by
    obtain ⟨index⟩ := scope
    cases index with
    | zero =>
        have member : (name, binding) ∈ [("loop", .callable (.closure ⟨0⟩ loopCall []))] :=
          Table.mem_of_get? present
        cases List.mem_singleton.mp member
        decide
    | succ index => cases present
  operands {stack value} member := by
    obtain ⟨index⟩ := stack
    cases index <;> cases member
  bodies := Nat.zero_le _
  values present := by cases present

theorem evaluation_terminates_when_looping :
    ((∃ final, runCode firstFrame loopCall (looping 3) = .ok () final) ∨
      ∃ failure final, runCode firstFrame loopCall (looping 3) = .error failure final ∧ failure.Calc) ∧
      ∃ count, (Moment.ofCode firstFrame loopCall (looping 3)).Takes count ∧ count ≤ 4 := by
  have hostless {law : Frame → Action → State → Prop} :
      (Moment.ofCode firstFrame loopCall (looping 3)).HostsObey law :=
    Moment.hostsObey_of_library fun body member => absurd member (Array.not_mem_empty body)
  have raisesNothing (failure : Failure) :
      ¬ (Moment.ofCode firstFrame loopCall (looping 3)).Raises failure :=
    Moment.not_raises_of_hostless rfl fun _ same => by cases same
  obtain ⟨ends, -, -, count, taken, -, bounded⟩ := evaluation_terminates firstFrame loopCall (looping 3)
    hostless fun failure raises => absurd raises (raisesNothing failure)
  refine ⟨?_, count, taken, bounded 1 (.inr ⟨hostless, looping_codesUpTo 3, by decide⟩)⟩
  have cutOff : ((Activity.steps firstFrame loopCall).run 8).failure? (looping 3) = some (.tooDeep 3) := by
    decide +kernel
  obtain ⟨deepest, deep⟩ := Run.failure?_eq_some.mp cutOff
  have same := runCode_of_run (by decide) deep (by decide)
  rcases ends with finished | ⟨failure, final, failed, known | ⟨cause, rfl⟩ | raised⟩
  · exact .inl finished
  · exact .inr ⟨failure, final, failed, known⟩
  · cases failed.symm.trans same
  · exact absurd raised (raisesNothing failure)

end LazyStack
