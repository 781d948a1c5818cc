import LazyStack.Proofs.Reference

/-!
Grounded states. Each effect of a run leads from a grounded state to a grounded one if it enters nothing but what
lies below the number of scopes: a new scope lies within one that is there already, and a closure or a promise that
is made over a scope comes later than the scope. So a run of grounded code keeps the state grounded, however deeply
its bodies nest and whether it succeeds or fails.
-/

namespace LazyStack

namespace State

/-- From one state to another that is grounded, with no scope lost. -/
structure Extends (before after : State) : Prop where
  grounded : after.Grounded
  grows : before.scopes.size ≤ after.scopes.size

theorem Extends.trans {first middle last : State} (earlier : first.Extends middle) (later : middle.Extends last) :
    first.Extends last :=
  ⟨later.grounded, Nat.le_trans earlier.grows later.grows⟩

theorem grounded_empty (limit : Nat) : (empty limit).Grounded where
  older inside := by simp [empty, scope] at inside
  bindings bound := by simp [empty, scope, Table.get?] at bound
  operands member := by simp [empty, State.operands] at member
  promise _ := ⟨nofun, trivial, nofun⟩
  null _ := trivial
  host _ := fun _ _ _ _ _ _ => trivial
  kept member := by simp [empty, memory, Memory.empty] at member

theorem mem_operands_setOperands {state : State} {stack other : StackId} {values : Operands} {value : Value}
    (member : value ∈ (state.setOperands stack values).operands other) :
    value ∈ values ∨ value ∈ state.operands other := by
  by_cases same : stack = other
  · subst same
    by_cases made : state.HasStack stack
    · rw [operands_setOperands_self made] at member
      exact .inl member
    · rw [setOperands_of_not_hasStack made] at member
      exact .inr member
  · rw [operands_setOperands_of_ne state same] at member
    exact .inr member

namespace Grounded

variable {state : State} (grounded : state.Grounded)
include grounded

theorem stay : state.Extends state :=
  ⟨grounded, Nat.le_refl _⟩

theorem setOperands (stack : StackId) {values : Operands} (below : ∀ value ∈ values, value.Below state.scopes.size) :
    state.Extends (state.setOperands stack values) where
  grounded := { grounded with
    operands := by
      intro other value member
      rcases mem_operands_setOperands member with entered | before
      · exact below value entered
      · exact grounded.operands before }
  grows := Nat.le_refl _

theorem withScopes {scopes : Array Scope} (wider : state.scopes.size ≤ scopes.size)
    (older : ∀ scope, { state with scopes := scopes }.ParentOlder scope)
    (bindings : ∀ {scope name binding},
      ({ state with scopes := scopes }.scope scope).bindings.get? name = some binding → binding.Below scopes.size) :
    state.Extends { state with scopes := scopes } where
  grounded :=
    { older := fun {scope parent} inside => older scope parent inside
      bindings := bindings
      operands := fun member => (grounded.operands member).mono wider
      promise := fun id => (grounded.promise id).mono wider
      null := fun domain => (grounded.null domain).mono wider
      host := fun id => (grounded.host id).mono wider
      kept := fun member => (grounded.kept member).mono wider }
  grows := wider

theorem bind (scope : ScopeId) (name : String) {binding : Binding} (below : binding.Below state.scopes.size) :
    state.Extends (state.bind scope name binding) := by
  have same : state.scopes.size = (state.bind scope name binding).scopes.size := by simp [State.bind, setScope]
  refine grounded.withScopes (Nat.le_of_eq same) (fun other parent inside => ?_) fun {other wanted found} present => ?_
  · exact grounded.older ((parent_bind state scope other name binding).symm.trans inside)
  · rcases bindings_bind present with rfl | before
    · exact below.mono (Nat.le_of_eq same)
    · exact (grounded.bindings before).mono (Nat.le_of_eq same)

theorem newScope {parent : Option ScopeId} (inside : ∀ scope, parent = some scope → scope.index < state.scopes.size) :
    state.Extends (state.scoping ⟨[], parent⟩) := by
  have wider : state.scopes.size ≤ (state.scopes.push ⟨[], parent⟩).size := by simp
  refine grounded.withScopes wider (fun other outer around => ?_) fun {other wanted found} present => ?_
  · rw [← State.scoping, scope_scoping] at around
    split at around
    next fresh => exact fresh ▸ inside outer around
    next => exact grounded.older around
  · rw [← State.scoping, scope_scoping] at present
    split at present
    · cases present
    · exact (grounded.bindings present).mono wider

theorem newStack : state.Extends state.stacking where
  grounded := { grounded with
    operands := by
      intro other value member
      rw [operands_stacking] at member
      split at member
      · cases member
      · exact grounded.operands member }
  grows := Nat.le_refl _

theorem newPromise {promise : Promise} (below : promise.Below state.scopes.size) :
    state.Extends (state.delaying promise) where
  grounded := { grounded with
    promise := by
      intro id
      rw [delaying, promise_push]
      split
      · exact below
      · exact grounded.promise id }
  grows := Nat.le_refl _

theorem resolve (id : PromiseId) {value : Value} (below : value.Below state.scopes.size) :
    state.Extends (state.resolve id value) where
  grounded := { grounded with
    promise := by
      intro other
      rcases promise_resolve_cases state id other value with ⟨-, stored⟩ | unchanged
      · rw [stored]
        exact ⟨nofun, trivial, fun held => Option.some.inj held ▸ below⟩
      · rw [unchanged]
        exact grounded.promise other }
  grows := Nat.le_refl _

theorem newHost {body : HostBody} (below : body.Below state.scopes.size) : state.Extends (state.hosting body) where
  grounded := { grounded with
    host := by
      intro id
      rw [hostBody_hosting]
      split
      · exact below
      · exact grounded.host id
    kept := fun {id} _ member => grounded.kept (state.memory_hosting body id ▸ member) }
  grows := Nat.le_refl _

theorem newDomain (names : Table Tag String) : state.Extends (state.founding names) where
  grounded := { grounded with
    null := by
      intro domain
      rw [domain_founding]
      split
      · trivial
      · exact grounded.null domain }
  grows := Nat.le_refl _

theorem setDomain (domain : DomainId) {content : Domain} (below : content.null.Below state.scopes.size) :
    state.Extends (state.setDomain domain content) where
  grounded := { grounded with
    null := by
      intro other
      rw [domain_setDomain]
      split
      · exact below
      · exact grounded.null other }
  grows := Nat.le_refl _

theorem record (event : Event) : state.Extends (state.record event) :=
  ⟨{ grounded with }, Nat.le_refl _⟩

theorem identifying : state.Extends state.identifying :=
  ⟨{ grounded with }, Nat.le_refl _⟩

theorem remember (host : HostId) {memory : Memory}
    (below : ∀ frame ∈ memory.frames, frame.Below state.scopes.size) : state.Extends (state.remember host memory) where
  grounded := { grounded with
    kept := by
      intro id frame member
      rw [memory_remember] at member
      split at member
      · exact below frame member
      · exact grounded.kept member }
  grows := Nat.le_refl _

theorem withLimit (limit : Nat) : state.Extends { state with callLimit := limit } :=
  ⟨{ grounded with }, Nat.le_refl _⟩

theorem lookup? {scope : ScopeId} {name : String} {binding : Binding}
    (found : state.lookup? scope name = some binding) : binding.Below state.scopes.size := by
  rw [State.lookup?, Option.bind_eq_some_iff] at found
  obtain ⟨owner, -, bound⟩ := found
  exact grounded.bindings bound

end Grounded

end State

namespace Run

variable {α β : Type} {bound : Nat}

/-- How a run ends that began in a grounded state: with what fits if it succeeds. -/
inductive EndsGrounded (fit : Nat → α → Prop) (before : State) : EStateM.Result Failure State α → Prop
  | ok {result after} : before.Extends after → fit after.scopes.size result → EndsGrounded fit before (.ok result after)
  | error {failure after} : before.Extends after → EndsGrounded fit before (.error failure after)

/-- A run that keeps each grounded state with so many scopes grounded. -/
def Grounded (bound : Nat) (fit : Nat → α → Prop) (run : Run α) : Prop :=
  ∀ ⦃state⦄, state.Grounded → state.scopes.size = bound → EndsGrounded fit state (run state)

theorem EndsGrounded.after {fit : Nat → α → Prop} {before middle : State} {outcome : EStateM.Result Failure State α}
    (ends : EndsGrounded fit middle outcome) (extended : before.Extends middle) : EndsGrounded fit before outcome := by
  cases ends with
  | ok more fits => exact .ok (extended.trans more) fits
  | error more => exact .error (extended.trans more)

namespace Grounded

variable {fit : Nat → α → Prop} {suits : Nat → β → Prop}

theorem pure {result : α} (fits : fit bound result) : Grounded bound fit (pure result) :=
  fun _ grounded same => .ok grounded.stay (same ▸ fits)

theorem throw (failure : Failure) : Grounded bound fit (throw failure) :=
  fun _ grounded _ => .error grounded.stay

theorem get : Grounded bound (fun more state => state.Grounded ∧ state.scopes.size = more) (get : Run State) :=
  fun _ grounded _ => .ok grounded.stay ⟨grounded, rfl⟩

theorem of_reads {run : Run α} (reads : Run.Reads run) : Grounded bound (fun _ _ => True) run := by
  intro state grounded _
  have same := reads state
  rw [Run.after] at same
  cases outcome : run state with
  | ok result after =>
      rw [outcome] at same
      subst same
      exact .ok grounded.stay trivial
  | error failure after =>
      rw [outcome] at same
      subst same
      exact .error grounded.stay

theorem bind {run : Run α} {next : α → Run β} (first : Grounded bound fit run)
    (later : ∀ {more result}, bound ≤ more → fit more result → Grounded more suits (next result)) :
    Grounded bound suits (run >>= next) := by
  intro state grounded same
  have ends := first grounded same
  rw [Run.bind_apply]
  generalize run state = outcome at ends ⊢
  cases ends with
  | ok extended fits => exact (later (same ▸ extended.grows) fits extended.grounded rfl).after extended
  | error extended => exact .error extended

theorem outcome {run : Run α} (grounded : Grounded bound fit run) :
    Grounded bound (fun more outcome => ∀ result, outcome = .ok result → fit more result) (Run.outcome run) := by
  intro state holds same
  have ends := grounded holds same
  rw [Run.outcome]
  generalize run state = outcome at ends ⊢
  cases ends with
  | ok extended fits => exact .ok extended fun _ equal => Except.ok.inj equal ▸ fits
  | error extended =>
      dsimp only
      split
      · exact .error extended
      · refine .ok extended fun _ equal => ?_
        cases equal

theorem of_ok {run : Run α} {state after : State} (grounded : Grounded state.scopes.size fit run)
    (holds : state.Grounded) {result : α} (ran : run state = .ok result after) :
    state.Extends after ∧ fit after.scopes.size result := by
  have ends := grounded holds rfl
  rw [ran] at ends
  cases ends with
  | ok extended fits => exact ⟨extended, fits⟩

theorem after {run : Run α} {state : State} (grounded : Grounded state.scopes.size fit run)
    (holds : state.Grounded) : state.Extends (run.after state) := by
  have ends := grounded holds rfl
  rw [Run.after]
  generalize run state = outcome at ends ⊢
  cases ends with
  | ok extended _ => exact extended
  | error extended => exact extended

end Grounded

theorem grounded_freshValue (domain : DomainId) (tag : Tag) {payload : Payload} (below : payload.Below bound) :
    Grounded bound (fun more value => value.Below more) (freshValue domain tag payload) := by
  rintro state grounded rfl
  exact .ok grounded.identifying below

theorem grounded_newScope {parent : Option ScopeId} (inside : ∀ scope, parent = some scope → scope.index < bound) :
    Grounded bound (fun more scope => scope.index < more) (newScope parent) := by
  rintro state grounded rfl
  exact .ok (grounded.newScope inside) (by simp)

theorem grounded_newStack : Grounded bound (fun _ _ => True) newStack :=
  fun _ grounded _ => .ok grounded.newStack trivial

theorem grounded_newTopFrame {scope : ScopeId} (inside : scope.index < bound) :
    Grounded bound (fun more frame => frame.Below more) (newTopFrame scope) :=
  grounded_newStack.bind fun wider _ => .pure (Nat.lt_of_lt_of_le inside wider)

theorem grounded_newLocalFrame {parent : Option ScopeId}
    (inside : ∀ scope, parent = some scope → scope.index < bound) (depth : Int) :
    Grounded bound (fun more frame => frame.Below more) (newLocalFrame parent depth) :=
  (grounded_newScope inside).bind fun _ fresh => grounded_newStack.bind fun wider _ =>
    .pure (Nat.lt_of_lt_of_le fresh wider)

theorem grounded_newPromise {scope : ScopeId} {body : List Step} (inside : scope.index < bound)
    (code : StepsBelow bound body) : Grounded bound (fun _ _ => True) (newPromise scope body) := by
  rintro state grounded rfl
  exact .ok (grounded.newPromise ⟨fun same => Option.some.inj same ▸ inside, code, nofun⟩) trivial

theorem grounded_resolve (id : PromiseId) {value : Value} (below : value.Below bound) :
    Grounded bound (fun _ _ => True) (modify fun state => state.resolve id value) := by
  rintro state grounded rfl
  exact .ok (grounded.resolve id below) trivial

theorem grounded_record (event : Event) : Grounded bound (fun _ _ => True) (record event) :=
  fun _ grounded _ => .ok (grounded.record event) trivial

theorem grounded_count (host : HostId) : Grounded bound (fun _ _ => True) (count host) :=
  fun _ grounded _ => .ok (grounded.remember host fun _ member => grounded.kept member) trivial

theorem grounded_keep (host : HostId) {frame : Frame} (inside : frame.Below bound) :
    Grounded bound (fun _ _ => True) (keep host frame) := by
  rintro state grounded rfl
  refine .ok (grounded.remember host fun other member => ?_) trivial
  rcases List.mem_cons.mp member with rfl | before
  · exact inside
  · exact grounded.kept before

theorem grounded_newHost {body : HostId → HostBody} (below : ∀ id, (body id).Below bound) :
    Grounded bound (fun _ _ => True) (newHost body) := by
  rintro state grounded rfl
  exact .ok (grounded.newHost (below _)) trivial

theorem grounded_newDomain (names : Table Tag String) : Grounded bound (fun _ _ => True) (newDomain names) :=
  fun _ grounded _ => .ok (grounded.newDomain names) trivial

end Run

variable {bound : Nat}

namespace StackId

variable (stack : StackId)

theorem grounded_push {value : Value} (below : value.Below bound) :
    Run.Grounded bound (fun _ _ => True) (stack.push value) := by
  rintro state grounded rfl
  refine .ok (grounded.setOperands stack fun other member => ?_) trivial
  rcases List.mem_cons.mp member with rfl | before
  · exact below
  · exact grounded.operands before

theorem grounded_pop : Run.Grounded bound (fun more value => value.Below more) stack.pop := by
  intro state grounded _
  cases present : state.operands stack with
  | nil =>
      rw [stack.pop_of_nil state present]
      exact .error grounded.stay
  | cons top rest =>
      rw [stack.pop_of_cons state present]
      have below (value : Value) (member : value ∈ top :: rest) : value.Below state.scopes.size :=
        grounded.operands (present ▸ member)
      exact .ok (grounded.setOperands stack fun value member => below value (List.mem_cons_of_mem top member))
        (below top List.mem_cons_self)

theorem grounded_popMany (count : Int) :
    Run.Grounded bound (fun more values => ∀ value ∈ values, value.Below more) (stack.popMany count) := by
  intro state grounded _
  rw [stack.popMany_apply]
  split
  · exact .error grounded.stay
  · refine .ok (grounded.setOperands stack fun value member => grounded.operands (List.mem_of_mem_drop member)) ?_
    exact fun value member => grounded.operands (List.mem_of_mem_take (List.mem_reverse.mp member))

theorem grounded_size : Run.Grounded bound (fun _ _ => True) stack.size :=
  fun _ grounded _ => .ok grounded.stay trivial

end StackId

namespace ScopeId

variable (scope : ScopeId) (name : String)

theorem grounded_bind {binding : Binding} (below : binding.Below bound) :
    Run.Grounded bound (fun _ _ => True) (scope.bind name binding) := by
  rintro state grounded rfl
  exact .ok (grounded.bind scope name below) trivial

theorem grounded_lookup : Run.Grounded bound (fun more binding => binding.Below more) (scope.lookup name) := by
  intro state grounded _
  rw [lookup_apply]
  cases found : state.lookup? scope name with
  | none => exact .error grounded.stay
  | some binding => exact .ok grounded.stay (grounded.lookup? found)

theorem grounded_rebind {binding : Binding} (below : binding.Below bound) :
    Run.Grounded bound (fun _ _ => True) (scope.rebind name binding) := by
  rw [rebind]
  refine Run.Grounded.get.bind fun {_ state} wider _ => ?_
  cases state.owner? scope name with
  | none => exact .throw _
  | some owner => exact owner.grounded_bind name (below.mono wider)

end ScopeId

namespace DomainId

variable (domain : DomainId)

theorem grounded_null : Run.Grounded bound (fun more value => value.Below more) domain.null :=
  Run.Grounded.get.bind fun _ state => .pure (state.2 ▸ state.1.null domain)

theorem grounded_create (tag : Tag) {payload : Payload} (below : payload.Below bound) :
    Run.Grounded bound (fun more value => value.Below more) (domain.create tag payload) := by
  rw [create]
  refine (Run.Grounded.of_reads (domain.reads_typeName tag)).bind fun wider name => ?_
  split
  · exact Run.grounded_freshValue domain tag (below.mono wider)
  · exact Run.Grounded.get.bind fun _ _ => .throw _

theorem grounded_list {items : List Value} {rest : Value} (below : ∀ item ∈ items, item.Below bound)
    (last : rest.Below bound) :
    Run.Grounded bound (fun more value => value.Below more) (domain.list items rest) := by
  rw [list]
  induction items with
  | nil => exact .pure last
  | cons item items ih =>
      rw [List.foldrM_cons]
      refine (ih fun other member => below other (List.mem_cons_of_mem item member)).bind fun wider tail => ?_
      exact domain.grounded_create .cell ⟨(below item List.mem_cons_self).mono wider, tail⟩

theorem grounded_register (tag : Tag) (name : String) :
    Run.Grounded bound (fun _ _ => True) (domain.register tag name) := by
  intro state grounded _
  rw [register, Run.bind_of_ok (Run.get_apply state), Domain.register]
  cases (state.domain domain).names.get? tag with
  | none => exact .ok (grounded.setDomain domain (grounded.null domain)) trivial
  | some existing =>
      dsimp only
      split
      · exact .ok (grounded.setDomain domain (grounded.null domain)) trivial
      · exact .error grounded.stay

end DomainId

theorem Value.grounded_expect {value : Value} (below : value.Below bound) (tag : Tag) (description : String) :
    Run.Grounded bound (fun more payload => payload.Below more) (value.expect tag description) := by
  rw [expect]
  split
  · exact .pure below.payload
  · refine (Run.Grounded.of_reads (value.domain.reads_typeName tag)).bind fun _ _ => ?_
    refine (Run.Grounded.of_reads (value.domain.reads_typeName value.tag)).bind fun _ _ => ?_
    exact Run.Grounded.get.bind fun _ _ => .throw _

theorem Binding.grounded_callee {binding : Binding} (below : binding.Below bound) (name : String) :
    Run.Grounded bound (fun more target => target.Below more) (binding.callee name) := by
  cases binding with
  | callable target => exact .pure below
  | value held =>
      rw [callee]
      split
      next target _ holds => exact .pure (holds ▸ Value.Below.payload below : Payload.Below bound (.callable target))
      next => exact (Run.Grounded.of_reads (held.domain.reads_typeName held.tag)).bind fun _ _ => .throw _

end LazyStack
