import LazyStack.Proofs.Admission
import LazyStack.Proofs.Evolution

/-!
The course of a run. A moment is an activity that is about to go on from a state, with a budget for
the bodies that may nest in it. `Starts` leads from a moment to the moments that its activity is made
of, each in the state in which it comes up, and `Reaches` to all that come up in its course, however
deeply nested. The parts of a moment are well founded, so a law of all moments needs to be shown only of
one whose parts obey it.
-/

namespace LazyStack

def Machine.within : Nat → Machine
  | 0 => .stopped
  | budget + 1 => .ofCalls (Callable.callWithin budget)

theorem Callable.callWithin_eq (budget : Nat) :
    Callable.callWithin budget = Callable.callOnce (.within budget) := by
  cases budget <;> rfl

inductive Activity
  | call (target : Callable) (frame : Frame) (args returns : Option Int)
  | body (target : Callable) (frame : Frame) (args returns : Option Int)
  | step (frame : Frame) (single : Step)
  | steps (frame : Frame) (code : List Step)
  | program (actions : Program Unit)
  | action (single : Action)

def Activity.run (budget : Nat) : Activity → Run Unit
  | .call target frame args returns => Callable.callWithin budget target frame args returns
  | .body target frame args returns => target.runBody (.within budget) frame args returns
  | .step frame single => single.execute (Callable.callWithin budget) frame
  | .steps frame code => executeSteps (Callable.callWithin budget) frame code
  | .program actions => actions.run (.within budget)
  | .action single => do let _ ← single.perform (.within budget)

structure Moment where
  budget : Nat
  activity : Activity
  state : State

namespace Moment

def after (moment : Moment) : State :=
  (moment.activity.run moment.budget).after moment.state

theorem after_action (budget : Nat) (action : Action) (state : State) :
    after ⟨budget, .action action, state⟩ = (action.perform (.within budget)).after state := by
  rw [after, Activity.run, Run.after_bind, Run.after]
  cases action.perform (.within budget) state <;> rfl

section Call

variable {target : Callable} {frame : Frame} {args returns : Option Int} {state : State}

theorem after_call_of_admits (admitted : target.Admits frame args returns state) (budget : Nat) :
    after ⟨budget, .call target frame args returns, state⟩ =
      after ⟨budget, .body target frame args returns, state⟩ := by
  rw [after, after, Activity.run, Activity.run, Callable.callWithin_eq,
    Callable.after_callOnce_of_admits admitted]

theorem after_call_of_not_admits (rejected : ¬ target.Admits frame args returns state) (budget : Nat) :
    after ⟨budget, .call target frame args returns, state⟩ = state := by
  obtain ⟨failure, failed⟩ := Callable.callOnce_of_not_admits rejected
  rw [after, Activity.run, Callable.callWithin_eq, Run.after_of_error (failed _)]

end Call

inductive Starts : Moment → Moment → Prop
  | body {budget target frame args returns state} :
      target.Admits frame args returns state →
      Starts ⟨budget, .call target frame args returns, state⟩
        ⟨budget, .body target frame args returns, state⟩
  | closure {budget scope code parameters frame args returns state inner start} :
      enterClosure scope parameters frame state = .ok inner start →
      Starts ⟨budget + 1, .body (.closure scope code parameters) frame args returns, state⟩
        ⟨budget, .steps inner code, start⟩
  | promise {budget id frame args returns state inner start} :
      (state.promise id).value = none →
      enterPromise (state.promise id).scope frame state = .ok inner start →
      Starts ⟨budget + 1, .body (.promise id) frame args returns, state⟩
        ⟨budget, .steps inner ((state.promise id).body.getD []), start⟩
  | force {budget target frame args returns state argument start} :
      frame.stack.pop state = .ok argument start →
      argument.expect .callable "'force' argument" start = .ok (.callable target) start →
      Starts ⟨budget + 1, .body .force frame args returns, state⟩
        ⟨budget, .call target frame (some 0) (some 1), start⟩
  | host {budget id header frame args returns state} :
      Starts ⟨budget, .body (.host id header) frame args returns, state⟩
        ⟨budget, .program (state.hostBody id frame args returns), state⟩
  | got {budget frame name state target} :
      state.lookup? frame.scope name = some (.callable target) →
      Starts ⟨budget, .step frame (.get name), state⟩
        ⟨budget, .call target frame (some 0) (some 1), state⟩
  | named {budget frame name args returns state binding target} :
      state.lookup? frame.scope name = some binding →
      binding.callee name state = .ok target state →
      Starts ⟨budget, .step frame (.call name args returns), state⟩
        ⟨budget, .call target frame args returns, state⟩
  | first {budget frame step rest state} :
      Starts ⟨budget, .steps frame (step :: rest), state⟩ ⟨budget, .step frame step, state⟩
  | rest {budget frame step rest state middle} :
      step.execute (Callable.callWithin budget) frame state = .ok () middle →
      Starts ⟨budget, .steps frame (step :: rest), state⟩ ⟨budget, .steps frame rest, middle⟩
  | asked {budget target frame args returns state} :
      Starts ⟨budget + 1, .action (.call target frame args returns), state⟩
        ⟨budget, .call target frame args returns, state⟩
  | ran {budget code frame state} :
      Starts ⟨budget + 1, .action (.run code frame), state⟩ ⟨budget, .steps frame code, state⟩
  | acts {budget action next state} :
      Starts ⟨budget, .program (.act action next), state⟩ ⟨budget, .action action, state⟩
  | attempts {budget action next state} :
      Starts ⟨budget, .program (.attempt action next), state⟩ ⟨budget, .action action, state⟩
  | next {budget state middle} {action : Action} {next : action.Reply → Program Unit}
      {reply : action.Reply} :
      action.perform (.within budget) state = .ok reply middle →
      Starts ⟨budget, .program (.act action next), state⟩ ⟨budget, .program (next reply), middle⟩
  | goesOn {budget state middle} {action : Action}
      {next : Except Failure action.Reply → Program Unit} {outcome : Except Failure action.Reply} :
      Run.outcome (action.perform (.within budget)) state = .ok outcome middle →
      Starts ⟨budget, .program (.attempt action next), state⟩ ⟨budget, .program (next outcome), middle⟩

/-- The moments that come up in the course of a moment, itself included. -/
inductive Reaches : Moment → Moment → Prop
  | here (moment : Moment) : Reaches moment moment
  | inside {whole part inner : Moment} : Starts whole part → Reaches part inner → Reaches whole inner

theorem Reaches.trans {whole part inner : Moment} (outer : Reaches whole part)
    (nested : Reaches part inner) : Reaches whole inner := by
  induction outer with
  | here => exact nested
  | inside starts _ ih => exact .inside starts (ih nested)

theorem Reaches.step_of_append {budget later : Nat} {frame inner : Frame} {first second : List Step}
    {single : Step} {state reached : State}
    (comesUp : Reaches ⟨budget, .steps frame first, state⟩ ⟨later, .step inner single, reached⟩) :
    Reaches ⟨budget, .steps frame (first ++ second), state⟩ ⟨later, .step inner single, reached⟩ := by
  induction first generalizing state with
  | nil =>
      cases comesUp with
      | inside starts _ => cases starts
  | cons step rest ih =>
      cases comesUp with
      | inside starts deeper =>
          cases starts with
          | first => exact .inside .first deeper
          | rest executed => exact .inside (.rest executed) (ih deeper)

theorem reaches_rest {budget : Nat} {frame : Frame} {first second : List Step} {state middle : State}
    (ran : executeSteps (Callable.callWithin budget) frame first state = .ok () middle) :
    Reaches ⟨budget, .steps frame (first ++ second), state⟩ ⟨budget, .steps frame second, middle⟩ := by
  induction first generalizing state with
  | nil =>
      cases ran
      exact .here _
  | cons step rest ih =>
      obtain ⟨_, reached, executed, remaining⟩ := Run.bind_eq_ok.mp ran
      exact .inside (.rest executed) (ih remaining)

theorem Reaches.of_push {budget : Nat} {frame : Frame} {value : Value} {rest : List Step} {state : State}
    {inner : Moment} (comesUp : Reaches ⟨budget, .steps frame (.push value :: rest), state⟩ inner)
    (apart : ∀ code, inner.activity ≠ .steps frame code) (later : inner.activity ≠ .step frame (.push value)) :
    Reaches ⟨budget, .steps frame rest, state.setOperands frame.stack (value :: state.operands frame.stack)⟩
      inner := by
  cases comesUp with
  | here => exact absurd rfl (apart _)
  | inside starts deeper =>
      cases starts with
      | first =>
          cases deeper with
          | here => exact absurd rfl later
          | inside starts _ => cases starts
      | rest executed =>
          cases executed
          exact deeper

theorem Reaches.of_single {budget : Nat} {frame : Frame} {step : Step} {state : State} {inner : Moment}
    (comesUp : Reaches ⟨budget, .steps frame [step], state⟩ inner)
    (apart : ∀ code, inner.activity ≠ .steps frame code) : Reaches ⟨budget, .step frame step, state⟩ inner := by
  cases comesUp with
  | here => exact absurd rfl (apart _)
  | inside starts deeper =>
      cases starts with
      | first => exact deeper
      | rest executed =>
          cases deeper with
          | here => exact absurd rfl (apart _)
          | inside starts _ => cases starts

section Induction

variable {motive : Moment → Prop}
  (whole : ∀ moment : Moment, (∀ part, moment.Starts part → motive part) → motive moment)
include whole

-- Within one budget the parts come in the order action, program, body, call, step, steps: each kind is
-- made of kinds before it, of a shorter piece of its own kind, or of activities under a smaller budget.
theorem action_of_lower {budget : Nat}
    (lower : ∀ smaller, smaller + 1 = budget → ∀ activity state, motive ⟨smaller, activity, state⟩)
    (action : Action) (state : State) : motive ⟨budget, .action action, state⟩ := by
  apply whole
  intro part starts
  cases starts with
  | asked => exact lower _ rfl _ _
  | ran => exact lower _ rfl _ _

theorem program_of_lower {budget : Nat}
    (lower : ∀ smaller, smaller + 1 = budget → ∀ activity state, motive ⟨smaller, activity, state⟩)
    (program : Program Unit) (state : State) : motive ⟨budget, .program program, state⟩ := by
  induction program generalizing state with
  | done result =>
      apply whole
      intro part starts
      cases starts
  | fail failure =>
      apply whole
      intro part starts
      cases starts
  | act action next ih =>
      apply whole
      intro part starts
      cases starts with
      | acts => exact action_of_lower whole lower _ _
      | next performed => exact ih _ _
  | attempt action next ih =>
      apply whole
      intro part starts
      cases starts with
      | attempts => exact action_of_lower whole lower _ _
      | goesOn attempted => exact ih _ _

theorem body_of_lower {budget : Nat}
    (lower : ∀ smaller, smaller + 1 = budget → ∀ activity state, motive ⟨smaller, activity, state⟩)
    (target : Callable) (frame : Frame) (args returns : Option Int) (state : State) :
    motive ⟨budget, .body target frame args returns, state⟩ := by
  apply whole
  intro part starts
  cases starts with
  | closure entered => exact lower _ rfl _ _
  | promise pending entered => exact lower _ rfl _ _
  | force popped expected => exact lower _ rfl _ _
  | host => exact program_of_lower whole lower _ _

theorem step_of_lower {budget : Nat}
    (lower : ∀ smaller, smaller + 1 = budget → ∀ activity state, motive ⟨smaller, activity, state⟩)
    (frame : Frame) (step : Step) (state : State) : motive ⟨budget, .step frame step, state⟩ := by
  have called (target : Callable) (args returns : Option Int) :
      motive ⟨budget, .call target frame args returns, state⟩ := by
    apply whole
    intro part starts
    cases starts with
    | body admitted => exact body_of_lower whole lower _ _ _ _ _
  apply whole
  intro part starts
  cases starts with
  | got bound => exact called _ _ _
  | named bound resolved => exact called _ _ _

/-- A law of moments holds if it passes from the parts of a moment to the moment. -/
theorem induction (moment : Moment) : motive moment := by
  obtain ⟨budget, activity, state⟩ := moment
  induction budget using Nat.strongRecOn generalizing activity state with
  | ind budget ih =>
      have lower : ∀ smaller, smaller + 1 = budget → ∀ activity state,
          motive ⟨smaller, activity, state⟩ := fun smaller below => ih smaller (by omega)
      cases activity with
      | action action => exact action_of_lower whole lower action state
      | program program => exact program_of_lower whole lower program state
      | body target frame args returns => exact body_of_lower whole lower target frame args returns state
      | call target frame args returns =>
          apply whole
          intro part starts
          cases starts with
          | body admitted => exact body_of_lower whole lower _ _ _ _ _
      | step frame step => exact step_of_lower whole lower frame step state
      | steps frame code =>
          induction code generalizing state with
          | nil =>
              apply whole
              intro part starts
              cases starts
          | cons step rest shorter =>
              apply whole
              intro part starts
              cases starts with
              | first => exact step_of_lower whole lower frame step state
              | rest executed => exact shorter _

end Induction

theorem Starts.not_reaches_back {whole part : Moment} (starts : whole.Starts part) : ¬ part.Reaches whole := by
  induction whole using induction generalizing part with
  | whole whole ih =>
      intro back
      cases back with
      | here => exact ih _ starts starts (.here _)
      | inside further deeper => exact ih part starts further (deeper.trans (.inside starts (.here _)))

end Moment

namespace Run

variable {holds : ∀ {α : Type}, Run α → State → Prop} {budget : Nat} {frame : Frame} {state : State}

-- Without any budget there is no call, and forcing fails instead.
theorem CompositionalOn.force (compositional : CompositionalOn frame.stack holds) {args returns : Option Int}
    (exhausted : budget = 0 → ∀ start, holds (throw .exhausted : Run Unit) start)
    (nested : ∀ part, Moment.Starts ⟨budget, .body .force frame args returns, state⟩ part →
      holds (part.activity.run part.budget) part.state) : holds (runForce (.within budget) frame) state := by
  rw [runForce]
  refine compositional.bind (compositional.pop state) fun argument start popped => ?_
  refine compositional.bind (compositional.expect argument _ _ start) fun payload reached expected => ?_
  have unchanged := (argument.reads_expect _ _).final_of_ok expected
  subst unchanged
  cases payload with
  | callable target =>
      cases budget with
      | zero => exact exhausted rfl _
      | succ smaller => exact nested _ (.force popped expected)
  | _ => exact compositional.pure () _

theorem Compositional.step (compositional : Compositional holds) {step : Step}
    (push : ∀ value, holds (frame.stack.push value) state)
    (nested : ∀ part, Moment.Starts ⟨budget, .step frame step, state⟩ part →
      holds (part.activity.run part.budget) part.state) :
    holds (step.execute (Callable.callWithin budget) frame) state := by
  cases step with
  | push value => exact push value
  | note text => exact compositional.pure () state
  | get name =>
      refine compositional.bind (compositional.lookup frame.scope name state) fun binding middle found => ?_
      obtain ⟨bound, rfl⟩ := ScopeId.lookup_eq_ok found
      cases binding with
      | callable target => exact nested _ (.got bound)
      | value value => exact push value
  | call name args returns =>
      refine compositional.bind (compositional.lookup frame.scope name state) fun binding middle found => ?_
      obtain ⟨bound, rfl⟩ := ScopeId.lookup_eq_ok found
      refine compositional.bind (compositional.callee binding name _) fun target reached resolved => ?_
      have unchanged := (binding.reads_callee name).final_of_ok resolved
      subst unchanged
      exact nested _ (.named bound resolved)

end Run

end LazyStack
