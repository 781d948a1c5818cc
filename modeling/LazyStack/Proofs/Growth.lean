import LazyStack.Proofs.Operation

/-!
What no run undoes. Whatever has been made stays made, and a run changes neither the domains nor the
hosts nor the limit on depth.
-/

namespace LazyStack

structure State.Grows (before after : State) : Prop where
  domains : after.domains = before.domains
  hosts : after.hosts = before.hosts
  callLimit : after.callLimit = before.callLimit
  scopes : before.scopes.size ≤ after.scopes.size
  operandStacks : before.operandStacks.size ≤ after.operandStacks.size
  promises : before.promises.size ≤ after.promises.size
  nextIdentity : before.nextIdentity ≤ after.nextIdentity

namespace State.Grows

theorem refl (state : State) : state.Grows state :=
  ⟨rfl, rfl, rfl, Nat.le_refl _, Nat.le_refl _, Nat.le_refl _, Nat.le_refl _⟩

theorem trans {first middle last : State} (earlier : first.Grows middle) (later : middle.Grows last) :
    first.Grows last where
  domains := later.domains.trans earlier.domains
  hosts := later.hosts.trans earlier.hosts
  callLimit := later.callLimit.trans earlier.callLimit
  scopes := Nat.le_trans earlier.scopes later.scopes
  operandStacks := Nat.le_trans earlier.operandStacks later.operandStacks
  promises := Nat.le_trans earlier.promises later.promises
  nextIdentity := Nat.le_trans earlier.nextIdentity later.nextIdentity

theorem evolution : Evolution Grows where
  refl := refl
  trans := trans
  operands state stack values := { refl state with
    operandStacks := by simp [setOperands] }
  binding state scope name binding := { refl state with
    scopes := by simp [State.bind, setScope] }
  identity state := { refl state with nextIdentity := Nat.le_succ _ }
  scope state parent := { refl state with scopes := by simp }
  stack state := { refl state with operandStacks := by simp }
  promise state scope body := { refl state with promises := by simp }
  record state event := { refl state with }
  remember state host memory := { refl state with }

theorem stores (moment : Moment) : moment.Stores Grows := by
  intro budget id frame args returns state value middle _ _ _ earlier
  exact { earlier with promises := by simpa [resolve] using earlier.promises }

theorem after (moment : Moment) : moment.state.Grows moment.after :=
  moment.evolves evolution (stores moment)

theorem of_reaches {whole inner : Moment} (reached : whole.Reaches inner) :
    whole.state.Grows inner.state :=
  Moment.reaches_evolves evolution reached (stores whole)

theorem of_starts {whole part : Moment} (starts : whole.Starts part) : whole.state.Grows part.state :=
  Moment.starts_evolves evolution starts (stores whole)

theorem of_executeSteps {budget : Nat} {frame : Frame} {code : List Step} {state final : State}
    (ran : executeSteps (Callable.callWithin budget) frame code state = .ok () final) :
    state.Grows final := by
  have kept := after ⟨budget, .steps frame code, state⟩
  rw [Moment.after, Activity.run, Run.after_of_ok ran] at kept
  exact kept

theorem of_step {budget : Nat} {frame : Frame} {step : Step} {state final : State}
    (ran : step.execute (Callable.callWithin budget) frame state = .ok () final) :
    state.Grows final := by
  have kept := after ⟨budget, .step frame step, state⟩
  rw [Moment.after, Activity.run, Run.after_of_ok ran] at kept
  exact kept

theorem null {before after : State} (grown : before.Grows after) {domain : DomainId} {null : Value}
    (own : (before.domain domain).null = null) : (after.domain domain).null = null := by
  rw [State.domain, grown.domains]
  exact own

theorem hasStack {before after : State} (grown : before.Grows after) {stack : StackId}
    (made : before.HasStack stack) : after.HasStack stack :=
  Nat.lt_of_lt_of_le made grown.operandStacks

end State.Grows

end LazyStack
