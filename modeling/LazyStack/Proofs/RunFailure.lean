import LazyStack.Proofs.Conduct

/-!
Calm runs. A run is calm when it can only end well, with an error of the calculus, for want of a text that a
message was to show, or with a failure that a host has raised. Every operation on the state is, and a call is
where the body that it comes to is.
-/

namespace LazyStack

def FailureKind.isCalc : FailureKind → Bool
  | .immutable | .register | .conversion | .nesting | .budget => false
  | _ => true

/-- An error of the calculus, as no write to an immutable value, no missing register, no want of a text and no
want of budget is. -/
def Failure.Calc (failure : Failure) : Prop :=
  failure.kind.isCalc

/-- An error of the calculus, or the want of a text that its message was to show. -/
def Failure.Own (failure : Failure) : Prop :=
  failure.Calc ∨ ∃ cause, failure = .unwritable cause

theorem Failure.Own.kind_ne_budget {failure : Failure} (own : failure.Own) : failure.kind ≠ .budget := by
  intro same
  rcases own with known | ⟨cause, rfl⟩
  · rw [Failure.Calc, same] at known
    cases known
  · cases cause <;> cases same

theorem Failure.own_worded {α : Type} {wording : α → Failure} (known : ∀ shown, (wording shown).Calc)
    (text : Written α) : (worded wording text).Own := by
  cases text with
  | ok shown => exact .inl (known shown)
  | error cause => exact .inr ⟨cause, rfl⟩

namespace Run

variable {α β : Type} {raised : Failure → Prop} {run : Run α} {state : State}

/-- A run that fails, if it does, with an error of its own or a failure that hosts have raised. -/
def Calm (raised : Failure → Prop) (run : Run α) (state : State) : Prop :=
  ∀ failure final, run state = .error failure final → failure.Own ∨ raised failure

theorem calm_of_ok {result : α} {final : State} (ran : run state = .ok result final) :
    run.Calm raised state := by
  intro failure reached failed
  cases ran.symm.trans failed

theorem calm_of_error {failure : Failure} {final : State} (failed : run state = .error failure final)
    (own : failure.Own) : run.Calm raised state := by
  intro other reached again
  cases failed.symm.trans again
  exact .inl own

theorem calm_of_calc {failure : Failure} {final : State} (failed : run state = .error failure final)
    (known : failure.Calc) : run.Calm raised state :=
  calm_of_error failed (.inl known)

theorem calm_throw {failure : Failure} (known : raised failure) :
    (throw failure : Run α).Calm raised state := by
  intro other reached again
  cases again
  exact .inr known

theorem calm_of_eq {other : Run α} (same : run state = other state) (calm : other.Calm raised state) :
    run.Calm raised state :=
  fun failure final failed => calm failure final (same ▸ failed)

theorem calm_get : Calm raised (get : Run State) state :=
  calm_of_ok rfl

theorem Calm.bind {next : α → Run β} (first : run.Calm raised state)
    (rest : ∀ result middle, run state = .ok result middle → (next result).Calm raised middle) :
    (run >>= next).Calm raised state := by
  intro failure final failed
  cases outcome : run state with
  | ok result middle =>
      rw [bind_of_ok outcome] at failed
      exact rest result middle outcome failure final failed
  | error other middle =>
      rw [bind_of_error outcome] at failed
      cases failed
      exact first _ _ outcome

theorem Calm.of_discarded (calm : (do let _ ← run : Run Unit).Calm raised state) :
    run.Calm raised state :=
  fun failure final failed => calm failure final (bind_of_error failed)

theorem Calm.outcome (calm : run.Calm raised state) : (outcome run).Calm raised state := by
  intro failure final failed
  rw [Run.outcome] at failed
  cases ran : run state with
  | ok result reached =>
      rw [ran] at failed
      cases failed
  | error other reached =>
      rw [ran] at failed
      dsimp only at failed
      split at failed
      · cases failed
        exact calm _ _ ran
      · cases failed

theorem calm_record (event : Event) : (record event).Calm raised state :=
  calm_of_ok rfl

end Run

section Operations

variable {raised : Failure → Prop} {state : State}

theorem StackId.calm_push (stack : StackId) (value : Value) : (stack.push value).Calm raised state :=
  Run.calm_of_ok rfl

theorem StackId.calm_pop (stack : StackId) : stack.pop.Calm raised state := by
  cases present : state.operands stack with
  | nil => exact Run.calm_of_calc (stack.pop_of_nil state present) rfl
  | cons value rest => exact Run.calm_of_ok (stack.pop_of_cons state present)

theorem DomainId.calm_typeName (domain : DomainId) (tag : Tag) :
    (domain.typeName tag).Calm raised state := by
  intro failure final failed
  rw [typeName_apply, Domain.typeName] at failed
  cases present : (state.domain domain).names.get? tag with
  | none =>
      rw [present] at failed
      cases failed
      exact .inl (.inl rfl)
  | some name =>
      rw [present] at failed
      cases failed

theorem DomainId.calm_create (domain : DomainId) (tag : Tag) (payload : Payload) :
    (domain.create tag payload).Calm raised state := by
  rw [create]
  refine (domain.calm_typeName tag).bind fun name middle _ => ?_
  split
  · exact Run.calm_of_ok rfl
  · refine Run.calm_get.bind fun _ _ _ => Run.calm_of_error rfl ?_
    refine Failure.own_worded (fun shown => ?_) _
    rfl

theorem ScopeId.calm_lookup (scope : ScopeId) (name : String) :
    (scope.lookup name).Calm raised state := by
  intro failure final failed
  rw [lookup_apply] at failed
  split at failed
  · cases failed
  · cases failed
    exact .inl (.inl rfl)

theorem Run.calm_show {α : Type} (shown : State → Written α) :
    (do Run.written (shown (← get)) : Run α).Calm raised state := by
  refine Run.calm_get.bind fun reached _ _ => ?_
  cases shown reached with
  | ok text => exact Run.calm_of_ok rfl
  | error cause => exact Run.calm_of_error rfl (.inr ⟨cause, rfl⟩)

theorem Run.Calm.compositional : Run.Compositional (Run.Calm raised) where
  bind := Run.Calm.bind
  pure _ _ := Run.calm_of_ok rfl
  refuse _ _ kind := Run.calm_of_calc rfl (by rw [Failure.Calc, kind]; rfl)
  refuseShowing _ _ _ kinds := by
    refine Run.calm_get.bind fun _ _ _ => Run.calm_of_error rfl ?_
    exact Failure.own_worded (fun shown => by rw [Failure.Calc, kinds]; rfl) _
  null _ _ := Run.calm_of_ok rfl
  typeName domain tag _ := domain.calm_typeName tag
  lookup scope name _ := scope.calm_lookup name

theorem Run.Calm.compositionalOn (stack : StackId) : Run.CompositionalOn stack (Run.Calm raised) where
  toCompositional := Run.Calm.compositional
  pop _ := stack.calm_pop
  push value _ := stack.calm_push value
  create domain tag payload _ := domain.calm_create tag payload
  newPromise _ _ _ := Run.calm_of_ok rfl

theorem Action.calm_perform {action : Action} (direct : action.Direct) (machine : Machine) :
    (action.perform machine).Calm raised state := by
  cases action with
  | pop stack => exact stack.calm_pop
  | popMany stack count =>
      have taken := stack.popMany_apply state count
      by_cases short : ((state.operands stack).length : Int) < count
      · rw [if_pos short] at taken
        exact Run.calm_of_calc taken rfl
      · rw [if_neg short] at taken
        exact Run.calm_of_ok taken
  | push stack value => exact stack.calm_push value
  | bind scope name binding => exact Run.calm_of_ok rfl
  | rebind scope name binding =>
      refine Run.calm_get.bind fun reached _ _ => ?_
      split
      · exact Run.calm_of_ok rfl
      · exact Run.calm_of_calc rfl rfl
  | call target frame args returns => cases direct
  | run code frame => cases direct
  | newScope parent => exact Run.calm_of_ok rfl
  | newStack => exact Run.calm_of_ok rfl
  | newPromise scope body => exact Run.calm_of_ok rfl
  | create domain tag payload => exact domain.calm_create tag payload
  | nullOf domain => exact Run.calm_of_ok rfl
  | expect value tag description => exact Run.Calm.compositional.expect value tag description state
  | count host => exact Run.calm_of_ok rfl
  | keep host frame => exact Run.calm_of_ok rfl
  | kept host => exact Run.calm_of_ok rfl
  | valueText value => exact Run.calm_show _
  | scopeText scope => exact Run.calm_show _

theorem calm_soleResult (stack : StackId) {failure : Nat → Failure}
    (known : ∀ count, (failure count).Calc) :
    (soleResult stack failure).Calm raised state := by
  rw [soleResult]
  refine Run.Calm.bind (Run.calm_of_ok (stack.size_apply state)) fun count middle _ => ?_
  split
  · exact stack.calm_pop
  · exact Run.calm_of_calc rfl (known count)

theorem calm_enterPromise (scope : Option ScopeId) (frame : Frame) :
    (enterPromise scope frame).Calm raised state := by
  intro failure final failed
  obtain ⟨-, rfl⟩ := enterPromise_eq_error failed
  exact .inl (.inl rfl)

theorem calm_enterClosure (scope : ScopeId) (parameters : List String) (frame : Frame) :
    (enterClosure scope parameters frame).Calm raised state := by
  intro failure final failed
  rcases enterClosure_eq_error failed with ⟨-, rfl | rfl⟩
  · exact .inl (.inl rfl)
  · exact .inl (.inl rfl)

theorem calm_requireContract (kind : String) (signature : Signature) (before : Nat) (frame : Frame) :
    (requireContract kind signature before frame).Calm raised state := by
  intro failure final failed
  rw [requireContract_apply] at failed
  split at failed
  · cases failed
  · cases failed
    exact .inl (.inl rfl)

theorem Callable.calm_callOnce {machine : Machine} {target : Callable} {frame : Frame}
    {args returns : Option Int}
    (body : target.Admits frame args returns state →
      (target.runBody machine frame args returns).Calm raised state) :
    (callOnce machine target frame args returns).Calm raised state := by
  rw [callOnce]
  cases declared : target.signature? with
  | none =>
      refine body fun signature same => ?_
      rw [declared] at same
      cases same
  | some signature =>
      by_cases accepted : signature.Accepts args returns
      · refine Run.Calm.bind (Run.calm_of_ok (checkCounts_of_accepts accepted _ state)) ?_
        intro _ middle checked
        cases (checkCounts_of_accepts accepted _ state).symm.trans checked
        have counted := requireOperands_apply target.kind signature frame state
        by_cases short : ((state.operands frame.stack).length : Int) < signature.args
        · rw [if_pos short] at counted
          exact Run.calm_of_calc (Run.bind_of_error counted) rfl
        · rw [if_neg short] at counted
          refine Run.calm_of_eq (Run.bind_of_ok counted) ((body ?_).bind fun _ _ _ => ?_)
          · intro other same
            rw [declared] at same
            cases same
            exact ⟨accepted, Int.not_lt.mp short⟩
          · exact calm_requireContract _ _ _ _
      · obtain ⟨failure, sort, failed⟩ := checkCounts_of_not_accepts accepted target.kind state
        exact Run.calm_of_calc (Run.bind_of_error failed) (by rw [Failure.Calc, sort]; rfl)

end Operations

end LazyStack
