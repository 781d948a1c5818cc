import LazyStack.Proofs.Frame
import LazyStack.Proofs.Growth

/-!
The height of the stack. Code whose calls state both of their counts changes the height of its stack by
a number that its steps alone decide, as long as every callable that it calls by name has a signature.
Code for which that number is not one is no body for a closure or a promise: no call of either returns.
-/

namespace LazyStack

def Step.Explicit : Step → Prop
  | .push _ => True
  | .get _ => True
  | .call _ args returns => args.isSome ∧ returns.isSome
  | .note _ => True

def Step.effect : Step → Int
  | .push _ => 1
  | .get _ => 1
  | .call _ args returns => returns.getD 0 - args.getD 0
  | .note _ => 0

def effect : List Step → Int
  | [] => 0
  | step :: rest => step.effect + effect rest

def Step.FindsFixed (frame : Frame) (state : State) : Step → Prop
  | .get name => ∀ target, state.lookup? frame.scope name = some (.callable target) →
      target.signature?.isSome
  | .call name _ _ => ∀ binding target, state.lookup? frame.scope name = some binding →
      binding.callee name state = .ok target state → target.signature?.isSome
  | _ => True

/-- Each step of code finds callables with a signature when its turn comes. -/
def FindsFixed (budget : Nat) (frame : Frame) : List Step → State → Prop
  | [], _ => True
  | step :: rest, state =>
      step.FindsFixed frame state ∧
        ∀ middle, step.execute (Callable.callWithin budget) frame state = .ok () middle →
          FindsFixed budget frame rest middle

section Height

variable {budget : Nat} {frame : Frame} {state final : State}

theorem Callable.height_of_callWithin {target : Callable} {args returns : Option Int}
    (fixed : target.signature?.isSome) {taken left : Int} (asked : args = some taken)
    (promised : returns = some left)
    (ran : callWithin budget target frame args returns state = .ok () final) :
    ((final.operands frame.stack).length : Int) =
      (state.operands frame.stack).length + (left - taken) := by
  obtain ⟨signature, declared⟩ := Option.isSome_iff_exists.mp fixed
  rw [callWithin_eq, callOnce_eq_ok_iff] at ran
  obtain ⟨admitted, _, settled⟩ := ran
  obtain ⟨⟨takes, leaves⟩, _⟩ := admitted signature declared
  have balance := settled signature declared
  rw [takes taken asked, leaves left promised]
  omega

theorem Step.height_of_execute {step : Step} (explicit : step.Explicit)
    (fixed : step.FindsFixed frame state) (made : state.HasStack frame.stack)
    (ran : step.execute (Callable.callWithin budget) frame state = .ok () final) :
    ((final.operands frame.stack).length : Int) =
      (state.operands frame.stack).length + step.effect := by
  have pushed (value : Value) : frame.stack.push value state = .ok () final →
      ((final.operands frame.stack).length : Int) = (state.operands frame.stack).length + 1 := by
    intro done
    rw [StackId.push_apply] at done
    cases done
    rw [State.operands_setOperands_self made]
    simp
  cases step with
  | push value => exact pushed value ran
  | note text =>
      cases ran
      simp [effect]
  | get name =>
      obtain ⟨binding, middle, found, rest⟩ := Run.bind_eq_ok.mp ran
      obtain ⟨bound, unchanged⟩ := ScopeId.lookup_eq_ok found
      subst unchanged
      cases binding with
      | value value => exact pushed value rest
      | callable target => exact Callable.height_of_callWithin (fixed target bound) rfl rfl rest
  | call name args returns =>
      obtain ⟨binding, middle, found, rest⟩ := Run.bind_eq_ok.mp ran
      obtain ⟨bound, unchanged⟩ := ScopeId.lookup_eq_ok found
      subst unchanged
      obtain ⟨target, same, resolved, called⟩ := Run.bind_eq_ok.mp rest
      have unchanged := (binding.reads_callee name).final_of_ok resolved
      subst unchanged
      obtain ⟨taken, asked⟩ := Option.isSome_iff_exists.mp explicit.1
      obtain ⟨left, promised⟩ := Option.isSome_iff_exists.mp explicit.2
      rw [Callable.height_of_callWithin (fixed binding target bound resolved) asked promised called,
        effect, asked, promised, Option.getD_some, Option.getD_some]

theorem height_of_executeSteps {code : List Step} (explicit : ∀ step ∈ code, step.Explicit)
    (fixed : FindsFixed budget frame code state) (made : state.HasStack frame.stack)
    (ran : executeSteps (Callable.callWithin budget) frame code state = .ok () final) :
    ((final.operands frame.stack).length : Int) =
      (state.operands frame.stack).length + effect code := by
  induction code generalizing state with
  | nil =>
      cases ran
      simp [effect]
  | cons step rest ih =>
      obtain ⟨_, middle, executed, remaining⟩ := Run.bind_eq_ok.mp ran
      obtain ⟨present, later⟩ := fixed
      have first := Step.height_of_execute (explicit step (by simp)) present made executed
      have still := (State.Grows.of_step executed).hasStack made
      have others := ih (fun other member => explicit other (by simp [member])) (later middle executed)
        still remaining
      rw [others, first, effect]
      omega

end Height

/-- Wherever the code begins to run in the course of a moment, it finds callables with a signature. -/
def Moment.RunsFixed (code : List Step) (moment : Moment) : Prop :=
  ∀ budget frame state, moment.Reaches ⟨budget, .steps frame code, state⟩ →
    FindsFixed budget frame code state

theorem Moment.RunsFixed.inside {code : List Step} {whole part : Moment} (fixed : whole.RunsFixed code)
    (reached : whole.Reaches part) : part.RunsFixed code :=
  fun budget frame state nested => fixed budget frame state (reached.trans nested)

def State.StaysPending (id : PromiseId) (scope : ScopeId) (code : List Step) (before after : State) :
    Prop :=
  before.promises[id.index]? = some (.pending scope code) →
    after.promises[id.index]? = some (.pending scope code)

theorem State.staysPending_evolution (id : PromiseId) (scope : ScopeId) (code : List Step) :
    OpenEvolution (StaysPending id scope code) where
  refl _ pending := pending
  trans earlier later pending := later (earlier pending)
  operands _ _ _ pending := pending
  binding _ _ _ _ pending := pending
  identity _ pending := pending
  scope _ _ pending := pending
  stack _ pending := pending
  promise state _ _ pending := by
    have made := (Array.getElem?_eq_some_iff.mp pending).1
    rw [Array.getElem?_push_lt made, ← Array.getElem?_eq_getElem made]
    exact pending
  record _ _ pending := pending
  remember _ _ _ pending := pending
  outside _ _ _ _ _ pending := pending

theorem State.promise_of_pending {state : State} {id : PromiseId} {scope : ScopeId} {code : List Step}
    (pending : state.promises[id.index]? = some (.pending scope code)) :
    state.promise id = .pending scope code := by
  rw [promise, pending]
  rfl

section Unbalanced

variable {code : List Step} (explicit : ∀ step ∈ code, step.Explicit) (unbalanced : effect code ≠ 1)
  {budget : Nat} {frame : Frame} {state : State}
include explicit unbalanced

theorem no_sole_result (empty : state.operands frame.stack = []) (made : state.HasStack frame.stack)
    (fixed : ∀ smaller, budget = smaller + 1 → FindsFixed smaller frame code state)
    (failure : Nat → Failure) (value : Value) (final : State) :
    ((Machine.within budget).run frame code >>= fun _ => soleResult frame.stack failure) state ≠
      .ok value final := by
  intro returned
  obtain ⟨_, middle, ran, alone⟩ := Run.bind_eq_ok.mp returned
  cases budget with
  | zero => cases ran
  | succ smaller =>
      have height := height_of_executeSteps explicit (fixed smaller rfl) made ran
      rw [empty, List.length_nil] at height
      rw [soleResult_of_ne_one (by omega) failure] at alone
      cases alone

theorem closure_never_returns {scope : ScopeId} {parameters : List String}
    {args returns : Option Int}
    (fixed : Moment.RunsFixed code
      ⟨budget, .call (.closure scope code parameters) frame args returns, state⟩) (final : State) :
    Callable.callWithin budget (.closure scope code parameters) frame args returns state ≠
      .ok () final := by
  intro returned
  rw [Callable.callWithin_eq, Callable.callOnce_eq_ok_iff] at returned
  obtain ⟨admitted, ran, _⟩ := returned
  obtain ⟨inner, start, entered, rest⟩ := Run.bind_eq_ok.mp ran
  obtain ⟨_, middle, executed, settled⟩ := Run.bind_eq_ok.mp rest
  obtain ⟨value, last, alone, _⟩ := Run.bind_eq_ok.mp settled
  obtain ⟨made, empty⟩ := enterClosure_starts_empty entered
  refine no_sole_result explicit unbalanced empty made ?_ _ value last
    (Run.bind_eq_ok.mpr ⟨_, middle, executed, alone⟩)
  intro smaller same
  subst same
  exact fixed smaller inner start (.inside (.body admitted) (.inside (.closure entered) (.here _)))

theorem compute_never_returns {id : PromiseId} {scope : ScopeId} {args returns : Option Int}
    (pending : state.promise id = .pending scope code)
    (fixed : Moment.RunsFixed code ⟨budget, .body (.promise id) frame args returns, state⟩)
    (value : Value) (final : State) :
    (state.promise id).compute (.within budget) frame state ≠ .ok value final := by
  intro returned
  have body : (state.promise id).body.getD [] = code := by
    rw [pending]
    rfl
  rw [Promise.compute, body] at returned
  obtain ⟨inner, start, entered, rest⟩ := Run.bind_eq_ok.mp returned
  obtain ⟨made, empty⟩ := enterPromise_starts_empty entered
  refine no_sole_result explicit unbalanced empty made ?_ _ value final rest
  intro smaller same
  subst same
  have unresolved : (state.promise id).value = none := by
    rw [pending]
    rfl
  have begun : Moment.Starts ⟨smaller + 1, .body (.promise id) frame args returns, state⟩
      ⟨smaller, .steps inner ((state.promise id).body.getD []), start⟩ := .promise unresolved entered
  rw [body] at begun
  exact fixed smaller inner start (.inside begun (.here _))

theorem promise_never_returns {id : PromiseId} {scope : ScopeId} {args returns : Option Int}
    (pending : state.promise id = .pending scope code)
    (fixed : Moment.RunsFixed code ⟨budget, .call (.promise id) frame args returns, state⟩)
    (final : State) :
    Callable.callWithin budget (.promise id) frame args returns state ≠ .ok () final := by
  intro returned
  rw [Callable.callWithin_eq, Callable.callOnce_eq_ok_iff] at returned
  obtain ⟨admitted, ran, _⟩ := returned
  have unresolved : (state.promise id).value = none := by
    rw [pending]
    rfl
  rw [Callable.runBody, runPromise_of_pending unresolved] at ran
  obtain ⟨value, middle, computed, _⟩ := Run.bind_eq_ok.mp ran
  exact compute_never_returns explicit unbalanced pending
    (fixed.inside (.inside (.body admitted) (.here _))) value middle computed

theorem staysPending_stores {id : PromiseId} {scope : ScopeId} {moment : Moment}
    (fixed : moment.RunsFixed code) : moment.Stores (State.StaysPending id scope code) := by
  intro budget other frame args returns state value middle reached _ computed earlier pending
  have kept := earlier pending
  by_cases same : other = id
  · subst same
    exact absurd computed (compute_never_returns explicit unbalanced (State.promise_of_pending pending)
      (fixed.inside reached) value middle)
  · have apart : other.index ≠ id.index := PromiseId.index_injective.ne same
    rw [State.resolve, Array.getElem?_setIfInBounds_ne apart]
    exact kept

end Unbalanced

/-- Code that succeeds has changed the height of its stack by the sum over its steps. If that sum is not
one, no call of a closure over the code returns, and a pending promise over it neither returns from a
call nor gets a value, whatever operations there are. -/
theorem stack_height_is_static (code : List Step) (explicit : ∀ step ∈ code, step.Explicit) :
    (∀ (budget : Nat) (frame : Frame) (state final : State), FindsFixed budget frame code state →
      state.HasStack frame.stack →
      executeSteps (Callable.callWithin budget) frame code state = .ok () final →
      ((final.operands frame.stack).length : Int) =
        (state.operands frame.stack).length + effect code) ∧
      (effect code ≠ 1 →
        (∀ (budget : Nat) (scope : ScopeId) (parameters : List String) (frame : Frame)
          (args returns : Option Int) (state final : State),
          Moment.RunsFixed code
            ⟨budget, .call (.closure scope code parameters) frame args returns, state⟩ →
          Callable.callWithin budget (.closure scope code parameters) frame args returns state ≠
            .ok () final) ∧
          ∀ (operations : List Operation) (state : State) (id : PromiseId) (scope : ScopeId),
            state.promises[id.index]? = some (.pending scope code) →
            (∀ inner, Operation.Arises operations state inner → inner.RunsFixed code) →
            (State.through operations state).promises[id.index]? = some (.pending scope code) ∧
              ∀ inner, Operation.Arises operations state inner →
                inner.state.promises[id.index]? = some (.pending scope code) ∧
                  ∀ frame args returns final, inner.activity = .call (.promise id) frame args returns →
                    inner.activity.run inner.budget inner.state ≠ .ok () final) := by
  refine ⟨fun budget frame state final fixed made ran =>
    height_of_executeSteps explicit fixed made ran, fun unbalanced => ⟨?_, ?_⟩⟩
  · intro budget scope parameters frame args returns state final fixed
    exact closure_never_returns explicit unbalanced fixed final
  · intro operations state id scope pending fixed
    have stores (moment : Moment) (arises : Operation.Arises operations state moment) :
        moment.Stores (State.StaysPending id scope code) :=
      staysPending_stores explicit unbalanced (fixed moment arises)
    have evolution := State.staysPending_evolution id scope code
    refine ⟨evolution.through_evolves stores pending, ?_⟩
    intro inner arises
    have still := evolution.arises_evolves arises stores pending
    refine ⟨still, ?_⟩
    obtain ⟨budget, activity, middle⟩ := inner
    intro frame args returns final calling
    dsimp only at calling
    subst calling
    exact promise_never_returns explicit unbalanced (State.promise_of_pending still)
      (fixed _ arises) final

def nine : Value :=
  ⟨⟨0⟩, .int, .int 9, 100⟩

def twoPushesPromised : State :=
  State.through [.addEnvironment none, .addTopFrame ⟨0⟩, .addPromise ⟨0⟩ [.push nine, .push nine]]
    (.empty 125)

theorem stack_height_is_static_for_two_results :
    (∃ final, executeSteps (Callable.callWithin 3) ⟨⟨0⟩, ⟨0⟩, 0⟩
        [.push nine, .call "ispromise" (some 1) (some 1), .push nine] twoPushesPromised = .ok () final ∧
        ((final.operands ⟨0⟩).length : Int) = 2) ∧
      (∀ final, Callable.callWithin 3 (.closure ⟨0⟩ [.push nine, .push nine] []) ⟨⟨0⟩, ⟨0⟩, 0⟩
        (some 0) (some 1) twoPushesPromised ≠ .ok () final) ∧
      (State.through [.call (.promise ⟨0⟩) ⟨⟨0⟩, ⟨0⟩, 0⟩ (some 0) (some 1)]
        twoPushesPromised).promises[0]? = some (.pending ⟨0⟩ [.push nine, .push nine]) := by
  have alwaysFixed (budget : Nat) (frame : Frame) (state : State) :
      FindsFixed budget frame [.push nine, .push nine] state :=
    ⟨trivial, fun _ _ => ⟨trivial, fun _ _ => trivial⟩⟩
  have twice := (stack_height_is_static [.push nine, .push nine] (by simp [Step.Explicit])).2
    (by simp [effect, Step.effect])
  refine ⟨?_, fun final => ?_, ?_⟩
  · have ran := stack_height_is_static [.push nine, .call "ispromise" (some 1) (some 1), .push nine]
      (by simp [Step.Explicit])
    refine ⟨_, rfl, ?_⟩
    refine ran.1 3 ⟨⟨0⟩, ⟨0⟩, 0⟩ twoPushesPromised _ ?_ (by decide) rfl
    refine ⟨trivial, fun middle pushed => ⟨?_, fun _ _ => ⟨trivial, fun _ _ => trivial⟩⟩⟩
    cases pushed
    intro binding target found resolved
    cases found
    cases resolved
    rfl
  · exact twice.1 3 ⟨0⟩ [] _ _ _ _ final fun budget frame state _ => alwaysFixed budget frame state
  · refine (twice.2 _ twoPushesPromised ⟨0⟩ ⟨0⟩ rfl ?_).1
    exact fun inner _ budget frame state _ => alwaysFixed budget frame state

end LazyStack
