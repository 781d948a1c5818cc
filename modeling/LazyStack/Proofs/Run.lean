import LazyStack.Proofs.Compositional

/-!
What single operations do to the state. Each operation has one equation for its result, and later
proofs use these instead of the definitions. `Run.after` is the state that a run ends in, whether it
succeeds or fails.
-/

namespace LazyStack

namespace Run

variable {α β : Type}

/-- The state that a run ends in, whether it succeeds or fails. -/
def after (run : Run α) (state : State) : State :=
  match run state with
  | .ok _ final => final
  | .error _ final => final

def failure? (run : Run α) (state : State) : Option Failure :=
  match run state with
  | .ok _ _ => none
  | .error failure _ => some failure

theorem failure?_eq_some {run : Run α} {state : State} {failure : Failure} :
    run.failure? state = some failure ↔ ∃ final, run state = .error failure final := by
  rw [failure?]
  constructor
  · intro failed
    split at failed
    next => cases failed
    next other final outcome =>
      cases failed
      exact ⟨final, outcome⟩
  · rintro ⟨final, failed⟩
    rw [failed]

@[simp]
theorem pure_apply (result : α) (state : State) : (pure result : Run α) state = .ok result state :=
  rfl

@[simp]
theorem get_apply (state : State) : (get : Run State) state = .ok state state :=
  rfl

theorem bind_apply (run : Run α) (next : α → Run β) (state : State) :
    (run >>= next) state =
      match run state with
      | .ok result middle => next result middle
      | .error failure middle => .error failure middle := by
  simp only [bind, EStateM.bind]
  cases run state <;> rfl

theorem bind_of_ok {run : Run α} {next : α → Run β} {state middle : State} {result : α}
    (ran : run state = .ok result middle) : (run >>= next) state = next result middle := by
  rw [bind_apply, ran]

theorem bind_of_error {run : Run α} {next : α → Run β} {state middle : State} {failure : Failure}
    (failed : run state = .error failure middle) :
    (run >>= next) state = .error failure middle := by
  rw [bind_apply, failed]

theorem bind_eq_ok {run : Run α} {next : α → Run β} {state final : State} {result : β} :
    (run >>= next) state = .ok result final ↔
      ∃ first middle, run state = .ok first middle ∧ next first middle = .ok result final := by
  constructor
  · intro ran
    cases outcome : run state with
    | ok first middle =>
        rw [bind_of_ok outcome] at ran
        exact ⟨first, middle, rfl, ran⟩
    | error failure middle =>
        rw [bind_of_error outcome] at ran
        cases ran
  · rintro ⟨first, middle, ran, rest⟩
    rw [bind_of_ok ran, rest]

theorem bind_congr {run other : Run α} {next rest : α → Run β} {state : State}
    (first : run state = other state)
    (later : ∀ result middle, run state = .ok result middle → next result middle = rest result middle) :
    (run >>= next) state = (other >>= rest) state := by
  cases outcome : run state with
  | ok result middle =>
      rw [bind_of_ok outcome, bind_of_ok (first ▸ outcome), later result middle outcome]
  | error failure middle => rw [bind_of_error outcome, bind_of_error (first ▸ outcome)]

theorem after_of_ok {run : Run α} {state final : State} {result : α}
    (ran : run state = .ok result final) : run.after state = final := by
  rw [after, ran]

theorem after_of_error {run : Run α} {state final : State} {failure : Failure}
    (failed : run state = .error failure final) : run.after state = final := by
  rw [after, failed]

theorem after_bind (run : Run α) (next : α → Run β) (state : State) :
    (run >>= next).after state =
      match run state with
      | .ok result middle => (next result).after middle
      | .error _ middle => middle := by
  rw [after, bind_apply]
  cases run state <;> rfl

theorem after_bind_of_ok {run : Run α} {next : α → Run β} {state middle : State} {result : α}
    (ran : run state = .ok result middle) : (run >>= next).after state = (next result).after middle := by
  rw [after_bind, ran]

theorem outcome_of_ok {run : Run α} {state middle : State} {result : α}
    (ran : run state = .ok result middle) : outcome run state = .ok (.ok result) middle := by
  rw [outcome, ran]

theorem outcome_of_error {run : Run α} {state middle : State} {failure : Failure}
    (failed : run state = .error failure middle) (kept : failure.kind ≠ .budget) :
    outcome run state = .ok (.error failure) middle := by
  rw [outcome, failed]
  exact if_neg kept

theorem outcome_of_spent {run : Run α} {state middle : State} {failure : Failure}
    (failed : run state = .error failure middle) (spent : failure.kind = .budget) :
    outcome run state = .error failure middle := by
  rw [outcome, failed]
  exact if_pos spent

theorem after_outcome (run : Run α) (state : State) : (outcome run).after state = run.after state := by
  rw [after, after, outcome]
  cases run state with
  | ok result final => rfl
  | error failure final =>
      dsimp only
      by_cases spent : failure.kind = .budget
      · rw [if_pos spent]
      · rw [if_neg spent]

theorem outcome_congr {run other : Run α} {state : State} (same : run state = other state) :
    outcome run state = outcome other state := by
  rw [outcome, outcome, same]

/-- A run that leaves the state as it is, whether it succeeds or fails. -/
def Reads (run : Run α) : Prop :=
  ∀ state, run.after state = state

theorem reads_pure (result : α) : Reads (pure result : Run α) :=
  fun _ => rfl

theorem reads_throw (failure : Failure) : Reads (throw failure : Run α) :=
  fun _ => rfl

theorem reads_get : Reads (get : Run State) :=
  fun _ => rfl

theorem after_bind_of_unchanged {run : Run α} {next : α → Run β} {state : State} (first : run.after state = state)
    (rest : ∀ result middle, run state = .ok result middle → (next result).after middle = middle) :
    (run >>= next).after state = state := by
  rw [after_bind]
  rw [after] at first
  cases outcome : run state with
  | ok result middle =>
      rw [outcome] at first
      exact (rest result middle outcome).trans first
  | error failure middle =>
      rw [outcome] at first
      exact first

theorem Reads.bind {run : Run α} {next : α → Run β} (first : Reads run)
    (rest : ∀ result, Reads (next result)) : Reads (run >>= next) :=
  fun state => after_bind_of_unchanged (first state) fun result middle _ => rest result middle

theorem Reads.final_of_ok {run : Run α} (reads : Reads run) {state final : State} {result : α}
    (ran : run state = .ok result final) : final = state := by
  rw [← reads state, after_of_ok ran]

theorem reads_ofExcept (outcome : Except Failure α) : Reads (Run.ofExcept outcome) := by
  cases outcome with
  | ok result => exact reads_pure result
  | error failure => exact reads_throw failure

theorem reads_written (shown : Written α) : Reads (Run.written shown) := by
  cases shown with
  | ok text => exact reads_pure text
  | error cause => exact reads_throw (.unwritable cause)

theorem reads_show (shown : State → Written α) : Reads (do Run.written (shown (← get)) : Run α) :=
  reads_get.bind fun _ => reads_written _

theorem ofExcept_eq_ok {outcome : Except Failure α} {state final : State} {result : α}
    (ran : Run.ofExcept outcome state = .ok result final) : outcome = .ok result ∧ final = state := by
  cases outcome with
  | ok found =>
      cases ran
      exact ⟨rfl, rfl⟩
  | error failure => cases ran

end Run

namespace Failure

/-- A failure for a type, or because the text that its message was to show cannot be written. -/
def Refuses {α : Type} (failure : Failure) (shown : Written α) : Prop :=
  failure.kind = .type ∨ ∃ cause, shown = .error cause ∧ failure = .unwritable cause

theorem worded_refuses {α : Type} (wording : α → Failure) (kind : ∀ text, (wording text).kind = .type)
    (shown : Written α) : (worded wording shown).Refuses shown := by
  cases shown with
  | ok text => exact .inl (kind text)
  | error cause => exact .inr ⟨cause, rfl, rfl⟩

theorem Refuses.kind_cases {α : Type} {failure : Failure} {shown : Written α} (refuses : failure.Refuses shown) :
    failure.kind = .type ∨ failure.kind = .conversion ∨ failure.kind = .nesting := by
  rcases refuses with type | ⟨cause, _, rfl⟩
  · exact .inl type
  · cases cause
    · exact .inr (.inl rfl)
    · exact .inr (.inr rfl)

end Failure

/-! Numbers tell scopes, stacks and promises apart. -/

theorem ScopeId.index_injective : Function.Injective ScopeId.index := by
  rintro ⟨first⟩ ⟨second⟩ same
  exact congrArg ScopeId.mk same

theorem StackId.index_injective : Function.Injective StackId.index := by
  rintro ⟨first⟩ ⟨second⟩ same
  exact congrArg StackId.mk same

theorem PromiseId.index_injective : Function.Injective PromiseId.index := by
  rintro ⟨first⟩ ⟨second⟩ same
  exact congrArg PromiseId.mk same

namespace State

def HasStack (state : State) (stack : StackId) : Prop :=
  stack.index < state.operandStacks.size

instance (state : State) (stack : StackId) : Decidable (state.HasStack stack) :=
  inferInstanceAs (Decidable (stack.index < state.operandStacks.size))

theorem hasStack_of_operands {state : State} {stack : StackId} (present : state.operands stack ≠ []) :
    state.HasStack stack := by
  refine Nat.lt_of_not_le fun beyond => present ?_
  rw [operands, Array.getElem?_eq_none beyond]
  rfl

@[simp] theorem hasStack_setOperands {state : State} {stack other : StackId} {values : Operands} :
    (state.setOperands stack values).HasStack other ↔ state.HasStack other := by
  simp [HasStack, setOperands]

theorem operands_push_nil (state : State) (stack : StackId) :
    { state with operandStacks := state.operandStacks.push [] }.operands stack = state.operands stack := by
  rw [operands, operands, Array.getElem?_push]
  split
  next last => rw [last, Array.getElem?_eq_none (Nat.le_refl _)]; rfl
  next => rfl

theorem operands_setOperands_self {state : State} {stack : StackId} (made : state.HasStack stack)
    (values : Operands) : (state.setOperands stack values).operands stack = values := by
  rw [HasStack] at made
  simp [operands, setOperands, made]

theorem operands_setOperands_of_ne (state : State) {stack other : StackId} (distinct : stack ≠ other)
    (values : Operands) : (state.setOperands stack values).operands other = state.operands other := by
  have apart : stack.index ≠ other.index := StackId.index_injective.ne distinct
  simp [operands, setOperands, apart]

theorem setOperands_setOperands (state : State) (stack : StackId) (first second : Operands) :
    (state.setOperands stack first).setOperands stack second = state.setOperands stack second := by
  simp [setOperands]

theorem setOperands_operands (state : State) (stack : StackId) :
    state.setOperands stack (state.operands stack) = state := by
  have same : state.operandStacks.setIfInBounds stack.index (state.operands stack) =
      state.operandStacks := by
    by_cases made : stack.index < state.operandStacks.size
    · simp [operands, Array.setIfInBounds, made]
    · exact Array.setIfInBounds_eq_of_size_le (by omega)
  rw [setOperands, same]

theorem setOperands_of_not_hasStack {state : State} {stack : StackId} (missing : ¬ state.HasStack stack)
    (operands : Operands) : state.setOperands stack operands = state := by
  rw [setOperands, Array.setIfInBounds_eq_of_size_le (Nat.not_lt.mp missing)]

theorem scope_setScope (state : State) (id other : ScopeId) (scope : Scope) :
    (id = other ∧ (state.setScope id scope).scope other = scope) ∨
      (state.setScope id scope).scope other = state.scope other := by
  simp only [State.scope, setScope, Array.getElem?_setIfInBounds]
  by_cases same : id.index = other.index
  · by_cases bound : other.index < state.scopes.size
    · exact .inl ⟨ScopeId.index_injective same, by simp [same, bound]⟩
    · exact .inr (by simp [same, bound])
  · exact .inr (by simp [same])

theorem parent_bind (state : State) (scope other : ScopeId) (name : String) (binding : Binding) :
    ((state.bind scope name binding).scope other).parent = (state.scope other).parent := by
  rw [bind]
  rcases scope_setScope state scope other _ with ⟨same, changed⟩ | unchanged
  · subst same
    rw [changed]
  · rw [unchanged]

theorem bindings_bind {state : State} {scope other : ScopeId} {name wanted : String} {binding found : Binding}
    (present : ((state.bind scope name binding).scope other).bindings.get? wanted = some found) :
    found = binding ∨ (state.scope other).bindings.get? wanted = some found := by
  rw [bind] at present
  rcases scope_setScope state scope other _ with ⟨same, changed⟩ | unchanged
  · subst same
    rw [changed] at present
    dsimp only at present
    by_cases equal : name = wanted
    · subst equal
      rw [Table.get?_put_self] at present
      cases present
      exact .inl rfl
    · rw [Table.get?_put_of_ne equal] at present
      exact .inr present
  · exact .inr (unchanged ▸ present)

theorem chainUpTo_of_scopes {first second : State} (same : first.scopes = second.scopes) (links : Nat)
    (scope : ScopeId) : first.chainUpTo links scope = second.chainUpTo links scope := by
  induction links generalizing scope with
  | zero => rfl
  | succ links ih =>
      rw [chainUpTo, chainUpTo, State.scope, same, ← State.scope]
      cases (second.scope scope).parent with
      | none => rfl
      | some parent => exact congrArg (scope :: ·) (ih parent)

theorem owner?_of_scopes {first second : State} (same : first.scopes = second.scopes) (scope : ScopeId)
    (name : String) : first.owner? scope name = second.owner? scope name := by
  have binds : first.binds name = second.binds name := by
    funext owner
    rw [State.binds, State.scope, same, ← State.scope, State.binds]
  rw [owner?, owner?, chain, chain, chainUpTo_of_scopes same, binds]

theorem lookup?_of_scopes {first second : State} (same : first.scopes = second.scopes) (scope : ScopeId)
    (name : String) : first.lookup? scope name = second.lookup? scope name := by
  have bindings (owner : ScopeId) : first.scope owner = second.scope owner := by
    rw [State.scope, same, State.scope]
  simp only [lookup?, owner?_of_scopes same, bindings]

theorem naming_of_same {first second : State} (domains : first.domains = second.domains)
    (promises : first.promises = second.promises) : first.naming = second.naming := by
  have typeName : first.typeName = second.typeName := by
    funext domain tag
    rw [State.typeName, State.typeName, State.domain, domains, ← State.domain]
  have promise : first.promise = second.promise := by
    funext id
    rw [State.promise, promises, ← State.promise]
  have promiseText (unfoldings : Nat) : first.promiseText unfoldings = second.promiseText unfoldings := by
    induction unfoldings with
    | zero => rfl
    | succ unfoldings ih =>
        funext id
        rw [State.promiseText, State.promiseText, typeName, promise, ih]
  rw [naming, naming, typeName, promises, promiseText]

theorem valueText_of_same {first second : State} (domains : first.domains = second.domains)
    (promises : first.promises = second.promises) : first.valueText = second.valueText := by
  funext value
  rw [valueText, valueText, naming_of_same domains promises]

theorem chainUpTo_outermost {state : State} {scope : ScopeId}
    (outermost : (state.scope scope).parent = none) (links : Nat) : state.chainUpTo links scope = [scope] := by
  cases links with
  | zero => rfl
  | succ links => rw [chainUpTo, outermost]

theorem found_of_cons (state : State) (scope : ScopeId) (chain : List ScopeId) (name : String) :
    (((scope :: chain).find? (state.binds name)).bind fun owner =>
        (state.scope owner).bindings.get? name) =
      ((state.scope scope).bindings.get? name).or
        ((chain.find? (state.binds name)).bind fun owner => (state.scope owner).bindings.get? name) := by
  rw [List.find?_cons, binds]
  cases bound : (state.scope scope).bindings.get? name with
  | none => rfl
  | some binding => exact bound

theorem promise_push (state : State) (added : Promise) (id : PromiseId) :
    { state with promises := state.promises.push added }.promise id =
      if id.index = state.promises.size then added else state.promise id := by
  simp only [promise, Array.getElem?_push]
  split <;> rfl

theorem promise_value_push (state : State) (scope : ScopeId) (body : List Step) (id : PromiseId) :
    ({ state with promises := state.promises.push (.pending scope body) }.promise id).value =
      (state.promise id).value := by
  rw [promise_push]
  split
  next added =>
    rw [promise, Array.getElem?_eq_none (Nat.le_of_eq added.symm)]
    rfl
  next => rfl

theorem scope_push_of_lt {state : State} (added : Scope) {scope : ScopeId}
    (present : scope.index < state.scopes.size) :
    { state with scopes := state.scopes.push added }.scope scope = state.scope scope := by
  rw [State.scope, Array.getElem?_push_lt present, State.scope, Array.getElem?_eq_getElem present]

theorem promise_resolve (state : State) (id : PromiseId) (value : Value) (other : PromiseId) :
    (state.resolve id value).promise other =
      if id.index = other.index ∧ id.index < state.promises.size then .resolved value
      else state.promise other := by
  simp only [promise, resolve, Array.getElem?_setIfInBounds]
  by_cases same : id.index = other.index
  · by_cases bound : other.index < state.promises.size
    · simp [same, bound]
    · simp [same, bound]
  · simp [same]

theorem promise_resolve_cases (state : State) (id other : PromiseId) (value : Value) :
    (id = other ∧ (state.resolve id value).promise other = .resolved value) ∨
      (state.resolve id value).promise other = state.promise other := by
  rw [promise_resolve]
  split
  next stored => exact .inl ⟨PromiseId.index_injective stored.1, rfl⟩
  next => exact .inr rfl

theorem promise_of_size_le {state : State} {id : PromiseId} (bound : state.promises.size ≤ id.index) :
    state.promise id = ⟨none, some [], none⟩ := by
  simp [promise, bound]

end State

namespace StackId

variable (stack : StackId) (state : State)

theorem push_apply (value : Value) :
    stack.push value state = .ok () (state.setOperands stack (value :: state.operands stack)) :=
  rfl

theorem size_apply : stack.size state = .ok (state.operands stack).length state :=
  rfl

theorem pop_of_cons {value : Value} {rest : Operands}
    (present : state.operands stack = value :: rest) :
    stack.pop state = .ok value (state.setOperands stack rest) := by
  rw [pop, Run.bind_of_ok (Run.get_apply state), present]
  rfl

theorem pop_of_nil (empty : state.operands stack = []) :
    stack.pop state = .error .underflow state := by
  rw [pop, Run.bind_of_ok (Run.get_apply state), empty]
  rfl

theorem popMany_apply (count : Int) :
    stack.popMany count state =
      if ((state.operands stack).length : Int) < count then
        .error (.shortStack count (state.operands stack).length) state
      else
        let size := (state.operands stack).blockSize count
        .ok ((state.operands stack).take size).reverse
          (state.setOperands stack ((state.operands stack).drop size)) := by
  rw [popMany, Run.bind_of_ok (Run.get_apply state), Operands.popMany]
  split <;> rfl

end StackId

theorem ScopeId.lookup_apply (scope : ScopeId) (name : String) (state : State) :
    scope.lookup name state =
      match state.lookup? scope name with
      | some binding => .ok binding state
      | none => .error (.unboundLookup name) state := by
  rw [lookup, Run.bind_of_ok (Run.get_apply state)]
  cases state.lookup? scope name <;> rfl

theorem ScopeId.lookup_eq_ok {scope : ScopeId} {name : String} {state final : State} {binding : Binding}
    (found : scope.lookup name state = .ok binding final) :
    state.lookup? scope name = some binding ∧ final = state := by
  rw [lookup_apply] at found
  cases bound : state.lookup? scope name with
  | none =>
      rw [bound] at found
      cases found
  | some other =>
      rw [bound] at found
      cases found
      exact ⟨rfl, rfl⟩

theorem ScopeId.reads_lookup (scope : ScopeId) (name : String) : Run.Reads (scope.lookup name) := by
  intro state
  rw [Run.after, lookup_apply]
  cases state.lookup? scope name <;> rfl

namespace DomainId

variable (domain : DomainId)

theorem typeName_apply (tag : Tag) (state : State) :
    domain.typeName tag state = Run.ofExcept ((state.domain domain).typeName tag) state :=
  rfl

theorem reads_typeName (tag : Tag) : Run.Reads (domain.typeName tag) := by
  intro state
  rw [Run.after, typeName_apply]
  exact Run.reads_ofExcept _ state

theorem reads_null : Run.Reads domain.null :=
  Run.reads_get.bind fun _ => Run.reads_pure _

theorem create_apply (tag : Tag) (payload : Payload) (state : State) :
    domain.create tag payload state =
      match (state.domain domain).names.get? tag with
      | none => .error (.unregistered tag) state
      | some name =>
          if payload.fits tag then
            .ok ⟨domain, tag, payload, state.nextIdentity⟩
              { state with nextIdentity := state.nextIdentity + 1 }
          else
            .error (.worded (.misfit · name) (state.payloadQuoted payload)) state := by
  rw [create, Run.bind_apply, typeName_apply, Domain.typeName]
  cases (state.domain domain).names.get? tag with
  | none => rfl
  | some name =>
      simp only [Run.ofExcept, Run.pure_apply]
      by_cases fitting : payload.fits tag
      · rw [if_pos fitting, if_pos fitting]
        rfl
      · rw [if_neg fitting, if_neg fitting]
        rfl

theorem create_eq_ok {tag : Tag} {payload : Payload} {state final : State} {value : Value}
    (created : domain.create tag payload state = .ok value final) :
    value = ⟨domain, tag, payload, state.nextIdentity⟩ ∧
      final = { state with nextIdentity := state.nextIdentity + 1 } := by
  rw [create_apply] at created
  split at created
  · cases created
  · split at created
    · cases created
      exact ⟨rfl, rfl⟩
    · cases created

variable {domain} in
theorem create_of_fits {tag : Tag} {payload : Payload} {state : State}
    (named : ((state.domain domain).names.get? tag).isSome) (fits : payload.fits tag) :
    domain.create tag payload state = .ok ⟨domain, tag, payload, state.nextIdentity⟩
      { state with nextIdentity := state.nextIdentity + 1 } := by
  obtain ⟨name, named⟩ := Option.isSome_iff_exists.mp named
  rw [create_apply, named]
  exact if_pos fits

variable {domain} in
theorem fits_of_create {tag : Tag} {payload : Payload} {state later : State} {value : Value}
    (created : domain.create tag payload state = .ok value later) :
    ((state.domain domain).names.get? tag).isSome ∧ payload.fits tag := by
  rw [create_apply] at created
  split at created
  · cases created
  next name named =>
    split at created
    next fits => exact ⟨Option.isSome_of_eq_some named, fits⟩
    · cases created

variable {domain} in
theorem wrap_of_tagFor? {payload : Payload} {state : State} {tag : Tag} (unshared : payload ≠ .null true)
    (chosen : (state.domain domain).tagFor? payload = some tag) :
    domain.wrap payload state = Run.freshValue domain tag payload state := by
  rw [wrap, Run.bind_of_ok (Run.get_apply state), chosen]
  exact unshared

variable {domain} in
theorem wrap_of_unclassified {payload : Payload} {state : State} (unshared : payload ≠ .null true)
    (unclassified : (state.domain domain).tagFor? payload = none) :
    domain.wrap payload state = .error (.unclassified payload.className) state := by
  rw [wrap, Run.bind_of_ok (Run.get_apply state), unclassified]
  · rfl
  · exact unshared

theorem refuses_naming (tag : Tag) {refusal : Failure → Prop} (unregistered : refusal (.unregistered tag))
    {α : Type} {next : String → Run α} {state : State}
    (refuses : ∀ name, ∃ failure, refusal failure ∧ next name state = .error failure state) :
    ∃ failure, refusal failure ∧ (domain.typeName tag >>= next) state = .error failure state := by
  rw [Run.bind_apply, typeName_apply, Domain.typeName]
  cases (state.domain domain).names.get? tag with
  | none => exact ⟨.unregistered tag, unregistered, rfl⟩
  | some name => exact refuses name

end DomainId

namespace Value

variable (value : Value) {tag : Tag} {state : State}

theorem expect_of_tag (description : String) (same : value.tag = tag) :
    value.expect tag description state = .ok value.payload state := by
  rw [expect, if_pos same]
  rfl

theorem expect_of_ne (description : String) (distinct : value.tag ≠ tag) :
    ∃ failure, failure.Refuses (state.valueText value) ∧
      value.expect tag description state = .error failure state := by
  rw [expect, if_neg distinct, typeName]
  refine value.domain.refuses_naming tag (.inl rfl) fun expected => ?_
  refine value.domain.refuses_naming value.tag (.inl rfl) fun found => ?_
  exact ⟨_, Failure.worded_refuses _ (fun _ => rfl) _, rfl⟩

end Value

theorem Run.Reads.compositional : Run.Compositional fun run state => run.after state = state where
  bind := Run.after_bind_of_unchanged
  pure := Run.reads_pure
  refuse failure state _ := Run.reads_throw failure state
  refuseShowing _ _ state _ := Run.reads_get.bind (fun _ => Run.reads_throw _) state
  null := DomainId.reads_null
  typeName := DomainId.reads_typeName
  lookup := ScopeId.reads_lookup

theorem Value.reads_expect (value : Value) (tag : Tag) (description : String) :
    Run.Reads (value.expect tag description) :=
  Run.Reads.compositional.expect value tag description

theorem DomainId.reads_parameterNames (domain : DomainId) (value : Value) :
    Run.Reads (domain.parameterNames value) :=
  Run.Reads.compositional.parameterNames domain value

theorem Binding.reads_callee (name : String) (binding : Binding) : Run.Reads (binding.callee name) :=
  Run.Reads.compositional.callee binding name

theorem Binding.callee_of_callable {bound : Value} {target : Callable} (name : String) (state : State)
    (tagged : bound.tag = .callable) (holds : bound.payload = .callable target) :
    (Binding.value bound).callee name state = .ok target state := by
  rw [callee, tagged, holds]
  rfl

theorem Value.callee_cases (bound : Value) (name : String) (state : State) :
    (∃ target, bound.tag = .callable ∧ bound.payload = .callable target ∧
      (Binding.value bound).callee name state = .ok target state) ∨
    (∀ target, bound.tag = .callable → bound.payload ≠ .callable target) ∧
      ∃ failure, failure.kind = .type ∧ (Binding.value bound).callee name state = .error failure state := by
  by_cases holds : ∃ target, bound.tag = .callable ∧ bound.payload = .callable target
  · obtain ⟨target, tagged, payload⟩ := holds
    exact .inl ⟨target, tagged, payload, Binding.callee_of_callable name state tagged payload⟩
  · refine .inr ⟨fun target tagged payload => holds ⟨target, tagged, payload⟩, ?_⟩
    have refuses : (Binding.value bound).callee name =
        (bound.typeName >>= fun found => throw (.notCallable name found)) := by
      rw [Binding.callee]
      split
      next target tagged payload => exact absurd ⟨target, tagged, payload⟩ holds
      next => rfl
    rw [refuses]
    refine bound.domain.refuses_naming bound.tag ?_ fun found => ⟨_, ?_, rfl⟩
    all_goals rfl

end LazyStack
