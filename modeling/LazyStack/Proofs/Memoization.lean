import LazyStack.Proofs.Operation

/-!
Promises keep their values. A promise gives up its scope and its body exactly when it gets a value, and
once an operation has ended with a value in it no later operation replaces that value. From then on a
call of the promise pushes the value and does nothing else, wherever in a run it comes up.
-/

namespace LazyStack

/-- A promise holds a value exactly when it holds neither its scope nor its body any more. -/
def Promise.Whole (promise : Promise) : Prop :=
  promise.value.isSome ↔ promise.scope = none ∧ promise.body = none

theorem Promise.whole_pending (scope : ScopeId) (body : List Step) : (pending scope body).Whole := by
  simp [Whole, pending]

theorem Promise.whole_resolved (value : Value) : (resolved value).Whole := by
  simp [Whole, resolved]

theorem Promise.Whole.eq_resolved {promise : Promise} {value : Value} (whole : promise.Whole)
    (present : promise.value = some value) : promise = resolved value := by
  obtain ⟨scope, body, held⟩ := promise
  dsimp only at present
  subst present
  obtain ⟨noScope, noBody⟩ := whole.mp rfl
  dsimp only at noScope noBody
  subst noScope noBody
  rfl

namespace State

def PromisesWhole (state : State) : Prop :=
  ∀ id, (state.promise id).Whole

def KeepsValues (before after : State) : Prop :=
  ∀ id, (before.promise id).value.isSome → after.promise id = before.promise id

theorem promisesWhole_evolution :
    OpenEvolution fun before after => before.PromisesWhole → after.PromisesWhole where
  refl _ whole := whole
  trans earlier later whole := later (earlier whole)
  operands _ _ _ whole := whole
  binding _ _ _ _ whole := whole
  identity _ whole := whole
  scope _ _ whole := whole
  stack _ whole := whole
  promise state scope body whole id := by
    rw [promise_push]
    split
    · exact Promise.whole_pending scope body
    · exact whole id
  record _ _ whole := whole
  remember _ _ _ whole := whole
  outside _ _ _ _ _ whole := whole

theorem keepsValues_evolution : OpenEvolution KeepsValues where
  refl _ _ _ := rfl
  trans earlier later id present := by
    have same := earlier id present
    rw [← same]
    exact later id (same ▸ present)
  operands _ _ _ _ _ := rfl
  binding _ _ _ _ _ _ := rfl
  identity _ _ _ := rfl
  scope _ _ _ _ := rfl
  stack _ _ _ := rfl
  promise state scope body id present := by
    rw [promise_push]
    split
    next added =>
      rw [promise_of_size_le (by omega)] at present
      cases present
    next => rfl
  record _ _ _ _ := rfl
  remember _ _ _ _ _ := rfl
  outside _ _ _ _ _ _ _ := rfl

theorem promisesWhole_stores (moment : Moment) :
    moment.Stores fun before after => before.PromisesWhole → after.PromisesWhole := by
  intro budget id frame args returns state value middle _ _ _ earlier whole other
  rw [promise_resolve]
  split
  · exact Promise.whole_resolved value
  · exact earlier whole other

-- The promise that is stored had no value when its body began, so it is none of those to be kept, even
-- where a nested call has given it a value meanwhile.
theorem keepsValues_stores (moment : Moment) : moment.Stores KeepsValues := by
  intro budget id frame args returns state value middle _ pending _ earlier other present
  rcases middle.promise_resolve_cases id other value with ⟨rfl, _⟩ | unchanged
  · rw [pending] at present
    cases present
  · rw [unchanged]
    exact earlier other present

theorem promisesWhole_through (limit : Nat) (operations : List Operation) :
    (State.through operations (.empty limit)).PromisesWhole := by
  refine promisesWhole_evolution.through_evolves (fun moment _ => promisesWhole_stores moment) ?_
  intro id
  rw [promise_of_size_le (Nat.zero_le _)]
  simp [Promise.Whole]

end State

/-- A moment that ends with a value pushed on a stack and all else as it was, and runs no code. -/
def Moment.OnlyPushes (moment : Moment) (stack : StackId) (value : Value) : Prop :=
  moment.activity.run moment.budget moment.state =
      .ok () (moment.state.setOperands stack (value :: moment.state.operands stack)) ∧
    ∀ inner, moment.Reaches inner → ∀ frame code, inner.activity ≠ .steps frame code

namespace Moment

variable {budget : Nat} {id : PromiseId} {value : Value} {frame : Frame} {args returns : Option Int}
  {state : State}

theorem run_call_of_value (present : (state.promise id).value = some value)
    (accepted : Signature.Accepts ⟨0, 1⟩ args returns) (made : state.HasStack frame.stack) :
    (Activity.call (.promise id) frame args returns).run budget state =
      .ok () (state.setOperands frame.stack (value :: state.operands frame.stack)) := by
  rw [Activity.run, Callable.callWithin_eq, Callable.callOnce_eq_ok_iff]
  refine ⟨?_, ?_, ?_⟩
  · intro signature declared
    cases declared
    exact ⟨accepted, Int.natCast_nonneg _⟩
  · rw [Callable.runBody, runPromise, Run.bind_of_ok (Run.get_apply state), present]
    rfl
  · intro signature declared
    cases declared
    rw [State.operands_setOperands_self made]
    simp

theorem course_of_value (present : (state.promise id).value = some value) {inner : Moment}
    (reached : Reaches ⟨budget, .call (.promise id) frame args returns, state⟩ inner) :
    inner.activity = .call (.promise id) frame args returns ∨
      inner.activity = .body (.promise id) frame args returns := by
  cases reached with
  | here => exact .inl rfl
  | inside starts deeper =>
      cases starts with
      | body admitted =>
          cases deeper with
          | here => exact .inr rfl
          | inside starts _ =>
              cases starts with
              | promise pending _ =>
                  rw [present] at pending
                  cases pending

theorem call_onlyPushes (present : (state.promise id).value = some value)
    (accepted : Signature.Accepts ⟨0, 1⟩ args returns) (made : state.HasStack frame.stack) :
    OnlyPushes ⟨budget, .call (.promise id) frame args returns, state⟩ frame.stack value := by
  refine ⟨run_call_of_value present accepted made, ?_⟩
  intro inner reached other code same
  rcases course_of_value present reached with calling | running
  · rw [calling] at same
    cases same
  · rw [running] at same
    cases same

end Moment

/-- Between operations every promise holds either a value or its scope and body. A value that it holds it holds after
all later operations, and every call of it that asks for the right counts only pushes that value. -/
theorem promise_value_is_final (limit : Nat) (earlier : List Operation) (id : PromiseId) :
    ((State.through earlier (.empty limit)).promise id).Whole ∧
      ∀ value, ((State.through earlier (.empty limit)).promise id).value = some value →
        ∀ later : List Operation,
          let reached := State.through (earlier ++ later) (.empty limit)
          reached.promise id = .resolved value ∧
            ∀ (operation : Operation) (budget : Nat) (frame : Frame) (args returns : Option Int)
              (state : State),
              operation.Reaches reached ⟨budget, .call (.promise id) frame args returns, state⟩ →
              Signature.Accepts ⟨0, 1⟩ args returns → state.HasStack frame.stack →
              Moment.OnlyPushes ⟨budget, .call (.promise id) frame args returns, state⟩ frame.stack
                value := by
  refine ⟨State.promisesWhole_through limit earlier id, ?_⟩
  intro value present later reached
  have kept : State.KeepsValues (State.through earlier (.empty limit)) reached := by
    rw [show reached = _ from State.through_append earlier later _]
    exact State.keepsValues_evolution.through_evolves fun moment _ => State.keepsValues_stores moment
  have settled : reached.promise id = .resolved value := by
    rw [kept id (by rw [present]; rfl)]
    exact (State.promisesWhole_through limit earlier id).eq_resolved present
  refine ⟨settled, ?_⟩
  intro operation budget frame args returns state comesUp accepted made
  have same := State.keepsValues_evolution.reaches_evolves comesUp
    (fun moment _ => State.keepsValues_stores moment) id (by rw [settled]; rfl)
  have still : (state.promise id).value = some value := by
    rw [same, settled]
    rfl
  exact Moment.call_onlyPushes still accepted made

def seven : Value :=
  ⟨⟨0⟩, .int, .int 7, 100⟩

def promiseGot : List Operation :=
  [.addEnvironment none, .addPromise ⟨0⟩ [.push seven],
    .setGlobal ⟨⟨0⟩, ⟨0⟩⟩ "p" (.callable (.promise ⟨0⟩)), .execute ⟨⟨0⟩, ⟨0⟩⟩ [.get "p"]]

def promiseGotAgain : State :=
  let reached := State.through (promiseGot ++ [.setLimit 1]) (.empty 125)
  { reached with operandStacks := reached.operandStacks.push [] }.record (.executing 1)

theorem promise_value_is_final_when_called_again :
    ((State.through promiseGot (.empty 125)).promise ⟨0⟩).value = some seven ∧
      Moment.OnlyPushes
        ⟨callBudget 1 0, .call (.promise ⟨0⟩) ⟨⟨0⟩, ⟨2⟩, 0⟩ (some 0) (some 1), promiseGotAgain⟩ ⟨2⟩
        seven := by
  have present : ((State.through promiseGot (.empty 125)).promise ⟨0⟩).value = some seven := rfl
  have bound : promiseGotAgain.lookup? ⟨0⟩ "p" = some (.callable (.promise ⟨0⟩)) := rfl
  have comesUp : Operation.Reaches (.execute ⟨⟨0⟩, ⟨0⟩⟩ [.call "p" (some 0) (some 1)])
      (State.through (promiseGot ++ [.setLimit 1]) (.empty 125))
      ⟨callBudget 1 0, .call (.promise ⟨0⟩) ⟨⟨0⟩, ⟨2⟩, 0⟩ (some 0) (some 1), promiseGotAgain⟩ :=
    ⟨_, .execute, .inside .first (.inside (.named bound rfl) (.here _))⟩
  have accepted : Signature.Accepts ⟨0, 1⟩ (some 0) (some 1) := by
    simp [Signature.Accepts]
  have made : promiseGotAgain.HasStack ⟨2⟩ := by
    decide
  have final := (promise_value_is_final 125 promiseGot ⟨0⟩).2 seven present [.setLimit 1]
  exact ⟨present, final.2 _ _ _ _ _ _ comesUp accepted made⟩

end LazyStack
