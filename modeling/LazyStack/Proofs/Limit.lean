import Mathlib.Data.List.Forall2
import LazyStack.Proofs.Conduct

/-!
What does not depend on the limit on depth. No operation reads the limit but the test that comes before a
body, and none but a host's own reads what a host remembers. So each of them ends in the same way under
every limit, whatever hosts remember, and a run that is made of such operations and of bodies lasts from
one limit to another if it is not cut off.
-/

namespace LazyStack

structure Frame.Shallower (other frame : Frame) : Prop where
  scope : other.scope = frame.scope
  stack : other.stack = frame.stack
  depth : other.depth ≤ frame.depth

structure Memory.Shallower (other memory : Memory) : Prop where
  count : other.count = memory.count
  frames : List.Forall₂ Frame.Shallower other.frames memory.frames

structure MemoriesShallower (others memories : Array Memory) : Prop where
  size : others.size = memories.size
  memory (index : Nat) : (others[index]?.getD .empty).Shallower (memories[index]?.getD .empty)

/-- A state under another limit on depth and with other memories of its hosts. -/
def State.lifted (state : State) (limit : Nat) (memories : Array Memory) : State :=
  { state with callLimit := limit, hostMemories := memories }

/-- A failure that says that a run was cut off: for its depth, or for want of budget. -/
def Failure.Cuts (failure : Failure) : Prop :=
  failure.kind = .recursion ∨ failure.kind = .budget

theorem Frame.Shallower.refl (frame : Frame) : frame.Shallower frame :=
  ⟨rfl, rfl, Int.le_refl _⟩

theorem Memory.Shallower.refl (memory : Memory) : memory.Shallower memory :=
  ⟨rfl, List.forall₂_same.mpr fun frame _ => .refl frame⟩

theorem MemoriesShallower.refl (memories : Array Memory) : MemoriesShallower memories memories :=
  ⟨rfl, fun _ => .refl _⟩

theorem MemoriesShallower.set {others memories : Array Memory} (shallower : MemoriesShallower others memories)
    (index : Nat) {other memory : Memory} (entered : other.Shallower memory) :
    MemoriesShallower (others.setIfInBounds index other) (memories.setIfInBounds index memory) where
  size := by rw [Array.size_setIfInBounds, Array.size_setIfInBounds, shallower.size]
  memory place := by
    rw [Array.getElem?_setIfInBounds, Array.getElem?_setIfInBounds, shallower.size]
    split
    · split
      · exact entered
      · exact .refl _
    · exact shallower.memory place

namespace State

variable (state : State) (limit : Nat) (memories : Array Memory)

@[simp]
theorem callLimit_lifted : (state.lifted limit memories).callLimit = limit :=
  rfl

@[simp]
theorem operands_lifted (stack : StackId) : (state.lifted limit memories).operands stack = state.operands stack :=
  rfl

@[simp]
theorem promise_lifted (id : PromiseId) : (state.lifted limit memories).promise id = state.promise id :=
  rfl

theorem naming_lifted : (state.lifted limit memories).naming = state.naming :=
  naming_of_same rfl rfl

theorem bindAll_lifted (scope : ScopeId) (names : List String) (values : List Value) :
    bindAll scope names values (state.lifted limit memories) =
      (bindAll scope names values state).lifted limit memories := by
  induction names generalizing values state with
  | nil => rfl
  | cons name names ih =>
      cases values with
      | nil => rfl
      | cons value values => exact ih (state.bind scope name (.value value)) values

theorem withArguments_lifted (scope : ScopeId) (parameters : List String) (frame : Frame) :
    (state.lifted limit memories).withArguments scope parameters frame =
      (state.withArguments scope parameters frame).lifted limit memories := by
  rw [withArguments, withArguments, ← bindAll_lifted]
  rfl

theorem hostMemories_bindAll (scope : ScopeId) (names : List String) (values : List Value) :
    (bindAll scope names values state).hostMemories = state.hostMemories := by
  induction names generalizing values state with
  | nil => rfl
  | cons name names ih =>
      cases values with
      | nil => rfl
      | cons value values => exact ih (state.bind scope name (.value value)) values

theorem hostMemories_withArguments (scope : ScopeId) (parameters : List String) (frame : Frame) :
    (state.withArguments scope parameters frame).hostMemories = state.hostMemories :=
  hostMemories_bindAll _ _ _ _

end State

namespace Run

variable {α β : Type}

def liftedTo (limit : Nat) (memories : Array Memory) : EStateM.Result Failure State α → EStateM.Result Failure State α
  | .ok result final => .ok result (final.lifted limit memories)
  | .error failure final => .error failure (final.lifted limit memories)

/-- A run that depends neither on the limit on depth nor on what hosts remember. -/
def Blind (run : Run α) : Prop :=
  ∀ state limit memories, run (state.lifted limit memories) = liftedTo limit memories (run state)

/-- An outcome was cut off, or another one is the same under another limit on depth, but for hosts that may remember
shallower frames. -/
inductive Lasts (limit : Nat) (agree : α → β → Prop) :
    EStateM.Result Failure State α → EStateM.Result Failure State β → Prop
  | cut {failure final later} : failure.Cuts → Lasts limit agree (.error failure final) later
  | fails {failure final memories} :
      MemoriesShallower memories final.hostMemories →
      Lasts limit agree (.error failure final) (.error failure (final.lifted limit memories))
  | ends {result answer final memories} :
      MemoriesShallower memories final.hostMemories → agree result answer →
      Lasts limit agree (.ok result final) (.ok answer (final.lifted limit memories))

variable {γ δ : Type} {limit : Nat} {memories : Array Memory} {state start : State}

theorem Lasts.bind {run : Run α} {other : Run β} {next : α → Run γ} {rest : β → Run δ}
    {agree : α → β → Prop} {fit : γ → δ → Prop} (first : Lasts limit agree (run state) (other start))
    (later : ∀ result answer middle memories, MemoriesShallower memories middle.hostMemories →
      agree result answer → run state = .ok result middle →
      Lasts limit fit (next result middle) (rest answer (middle.lifted limit memories))) :
    Lasts limit fit ((run >>= next) state) ((other >>= rest) start) := by
  rw [bind_apply, bind_apply]
  generalize outcome : run state = reached at first
  generalize other start = answered at first
  cases first with
  | cut cuts => exact .cut cuts
  | fails shallower => exact .fails shallower
  | ends shallower same => exact later _ _ _ _ shallower same outcome

variable {run : Run α} {next : α → Run β}

theorem Blind.hostMemories (blind : Blind run) (state : State) :
    (run.after state).hostMemories = state.hostMemories := by
  have same := blind state state.callLimit state.hostMemories
  rw [show state.lifted state.callLimit state.hostMemories = state from rfl] at same
  rw [after, same]
  cases run state <;> rfl

theorem Blind.lasts (blind : Blind run) (shallower : MemoriesShallower memories state.hostMemories) :
    Lasts limit (· = ·) (run state) (run (state.lifted limit memories)) := by
  have kept := blind.hostMemories state
  rw [after] at kept
  rw [blind state limit]
  cases outcome : run state with
  | ok result final =>
      rw [outcome] at kept
      exact .ends (kept ▸ shallower) rfl
  | error failure final =>
      rw [outcome] at kept
      exact .fails (kept ▸ shallower)

theorem Blind.lasts_bind {rest : α → Run γ} {fit : β → γ → Prop} (blind : Blind run)
    (shallower : MemoriesShallower memories state.hostMemories)
    (later : ∀ result middle memories, MemoriesShallower memories middle.hostMemories →
      run state = .ok result middle →
        Lasts limit fit (next result middle) (rest result (middle.lifted limit memories))) :
    Lasts limit fit ((run >>= next) state) ((run >>= rest) (state.lifted limit memories)) :=
  (blind.lasts shallower).bind fun result _ middle memories alike same ran =>
    same ▸ later result middle memories alike ran

theorem blind_pure (result : α) : Blind (pure result : Run α) :=
  fun _ _ _ => rfl

theorem blind_throw (failure : Failure) : Blind (throw failure : Run α) :=
  fun _ _ _ => rfl

theorem liftedTo_bind (first : run (state.lifted limit memories) = liftedTo limit memories (run state))
    (later : ∀ result middle, run state = .ok result middle →
      next result (middle.lifted limit memories) = liftedTo limit memories (next result middle)) :
    (run >>= next) (state.lifted limit memories) = liftedTo limit memories ((run >>= next) state) := by
  cases outcome : run state with
  | ok result middle =>
      rw [outcome] at first
      rw [bind_of_ok outcome, bind_of_ok first]
      exact later result middle outcome
  | error failure middle =>
      rw [outcome] at first
      rw [bind_of_error outcome, bind_of_error first]
      rfl

theorem Blind.bind (first : Blind run) (later : ∀ result, Blind (next result)) : Blind (run >>= next) :=
  fun state limit memories =>
    liftedTo_bind (first state limit memories) fun result middle _ => later result middle limit memories

theorem blind_get {next : State → Run β}
    (same : ∀ state limit memories, next (State.lifted state limit memories) = next state)
    (later : ∀ state, Blind (next state)) : Blind (get >>= next) := by
  intro state limit memories
  rw [bind_of_ok (get_apply _), bind_of_ok (get_apply state), same]
  exact later state state limit memories

theorem blind_ofExcept (outcome : Except Failure α) : Blind (Run.ofExcept outcome) := by
  cases outcome with
  | ok result => exact blind_pure result
  | error failure => exact blind_throw failure

theorem blind_written (shown : Written α) : Blind (written shown) := by
  cases shown with
  | ok text => exact blind_pure text
  | error cause => exact blind_throw _

theorem blind_record (event : Event) : Blind (record event) :=
  fun _ _ _ => rfl

end Run

section Operations

open Run

theorem StackId.blind_push (stack : StackId) (value : Value) : Blind (stack.push value) :=
  fun _ _ _ => rfl

theorem StackId.blind_pop (stack : StackId) : Blind stack.pop := by
  intro state limit memories
  cases present : state.operands stack with
  | nil =>
      rw [stack.pop_of_nil state present]
      exact stack.pop_of_nil _ present
  | cons value rest =>
      rw [stack.pop_of_cons state present]
      exact stack.pop_of_cons _ present

theorem StackId.blind_popMany (stack : StackId) (count : Int) : Blind (stack.popMany count) := by
  intro state limit memories
  have same : (state.lifted limit memories).operands stack = state.operands stack := rfl
  rw [stack.popMany_apply, stack.popMany_apply, same]
  split <;> rfl

theorem ScopeId.blind_lookup (scope : ScopeId) (name : String) : Blind (scope.lookup name) := by
  intro state limit memories
  have scopes : (state.lifted limit memories).scopes = state.scopes := rfl
  have same := State.lookup?_of_scopes scopes scope name
  rw [scope.lookup_apply, scope.lookup_apply, same]
  split <;> rfl

theorem DomainId.blind_typeName (domain : DomainId) (tag : Tag) : Blind (domain.typeName tag) :=
  fun state limit memories => blind_ofExcept ((state.domain domain).typeName tag) state limit memories

theorem DomainId.blind_create (domain : DomainId) (tag : Tag) (payload : Payload) :
    Blind (domain.create tag payload) := by
  rw [create]
  refine (domain.blind_typeName tag).bind fun name => ?_
  split
  · exact fun _ _ _ => rfl
  · refine blind_get (fun state limit memories => ?_) fun _ => blind_throw _
    rw [State.payloadQuoted, state.naming_lifted, State.payloadQuoted]

theorem Run.Blind.compositional :
    Compositional fun run state =>
      ∀ limit memories, run (state.lifted limit memories) = liftedTo limit memories (run state) where
  bind first later limit memories :=
    liftedTo_bind (first limit memories) fun result middle ran => later result middle ran limit memories
  pure := blind_pure
  refuse failure state _ := blind_throw failure state
  refuseShowing value _ state _ limit memories := by
    refine blind_get (fun state limit memories => ?_) (fun _ => blind_throw _) state limit memories
    rw [State.valueText, state.naming_lifted, State.valueText]
  null _ _ _ _ := rfl
  typeName := DomainId.blind_typeName
  lookup := ScopeId.blind_lookup

theorem Run.Blind.compositionalOn (stack : StackId) : CompositionalOn stack
    fun run state => ∀ limit memories, run (state.lifted limit memories) = liftedTo limit memories (run state) where
  toCompositional := Run.Blind.compositional
  pop := stack.blind_pop
  push := stack.blind_push
  create := DomainId.blind_create
  newPromise _ _ _ _ _ := rfl

theorem Value.blind_expect (value : Value) (tag : Tag) (description : String) :
    Blind (value.expect tag description) :=
  Run.Blind.compositional.expect value tag description

theorem Binding.blind_callee (binding : Binding) (name : String) : Blind (binding.callee name) :=
  Run.Blind.compositional.callee binding name

theorem ScopeId.blind_rebind (scope : ScopeId) (name : String) (binding : Binding) :
    Blind (scope.rebind name binding) := by
  rw [rebind]
  refine blind_get (fun state limit memories => ?_) fun state => ?_
  · have scopes : (state.lifted limit memories).scopes = state.scopes := rfl
    rw [State.owner?_of_scopes scopes]
  · split
    · exact fun _ _ _ => rfl
    · exact blind_throw _

def Action.host? : Action → Option HostId
  | .count host => some host
  | .keep host _ => some host
  | .kept host => some host
  | _ => none

theorem Action.blind_perform {action : Action} (direct : action.Direct) (apart : action.host? = none)
    (machine : Machine) : Blind (action.perform machine) := by
  cases action with
  | pop stack => exact stack.blind_pop
  | popMany stack count => exact stack.blind_popMany count
  | push stack value => exact stack.blind_push value
  | bind scope name binding => exact fun _ _ _ => rfl
  | rebind scope name binding => exact scope.blind_rebind name binding
  | call target frame args returns => cases direct
  | run code frame => cases direct
  | newScope parent => exact fun _ _ _ => rfl
  | newStack => exact fun _ _ _ => rfl
  | newPromise scope body => exact fun _ _ _ => rfl
  | create domain tag payload => exact domain.blind_create tag payload
  | nullOf domain => exact fun _ _ _ => rfl
  | expect value tag description => exact value.blind_expect tag description
  | count host => cases apart
  | keep host frame => cases apart
  | kept host => cases apart
  | valueText value =>
      refine blind_get (fun state limit memories => ?_) fun _ => blind_written _
      rw [State.valueText, state.naming_lifted, State.valueText]
  | scopeText scope =>
      refine blind_get (fun state limit memories => ?_) fun _ => blind_written _
      rw [State.scopeText, state.naming_lifted, State.scopeText]
      rfl

section Memories

variable {limit : Nat} {memories : Array Memory} {state : State}
  (shallower : MemoriesShallower memories state.hostMemories)
include shallower

theorem MemoriesShallower.memory_lifted (host : HostId) :
    ((state.lifted limit memories).memory host).Shallower (state.memory host) :=
  shallower.memory host.index

theorem Run.lasts_count (host : HostId) :
    Lasts limit (· = ·) (Run.count host state) (Run.count host (state.lifted limit memories)) := by
  have alike : ((state.lifted limit memories).memory host).Shallower (state.memory host) := shallower.memory_lifted host
  have more := congrArg (· + 1) alike.count
  exact .ends (shallower.set host.index ⟨more, alike.frames⟩) more.symm

theorem Run.lasts_keep (host : HostId) {frame other : Frame} (shown : other.Shallower frame) :
    Lasts limit (· = ·) (Run.keep host frame state) (Run.keep host other (state.lifted limit memories)) := by
  have alike : ((state.lifted limit memories).memory host).Shallower (state.memory host) := shallower.memory_lifted host
  exact .ends (shallower.set host.index ⟨alike.count, .cons shown alike.frames⟩) rfl

theorem Run.lasts_kept (machine other : Machine) (host : HostId) :
    Lasts limit (fun frames others => List.Forall₂ Frame.Shallower others frames)
      ((Action.kept host).perform machine state) ((Action.kept host).perform other (state.lifted limit memories)) := by
  have alike : ((state.lifted limit memories).memory host).Shallower (state.memory host) := shallower.memory_lifted host
  exact .ends shallower alike.frames

end Memories

theorem blind_checkCounts (kind : String) (signature : Signature) (args returns : Option Int) :
    Blind (checkCounts kind signature args returns) := by
  have count (mismatch : Int → Int → Failure) (declared : Int) (requested : Option Int) :
      Blind (requireCount mismatch declared requested) := by
    cases requested with
    | none => exact blind_pure ()
    | some requested =>
        rw [requireCount]
        split
        · exact blind_pure ()
        · exact blind_throw _
  exact (count _ _ _).bind fun _ => count _ _ _

theorem blind_requireOperands (kind : String) (signature : Signature) (frame : Frame) :
    Blind (requireOperands kind signature frame) := by
  intro state limit memories
  rw [requireOperands_apply, requireOperands_apply, State.operands_lifted]
  split <;> rfl

theorem blind_requireContract (kind : String) (signature : Signature) (before : Nat) (frame : Frame) :
    Blind (requireContract kind signature before frame) := by
  intro state limit memories
  rw [requireContract_apply, requireContract_apply, State.operands_lifted]
  split <;> rfl

theorem blind_soleResult (stack : StackId) (failure : Nat → Failure) :
    Blind (soleResult stack failure) := by
  rw [soleResult]
  refine Blind.bind (fun _ _ _ => rfl : Blind stack.size) fun count => ?_
  split
  · exact stack.blind_pop
  · exact blind_throw _

theorem blind_runMakeClosure (domain : DomainId) (frame : Frame) : Blind (runMakeClosure domain frame) :=
  fun _ => (Run.Blind.compositionalOn frame.stack).makeClosure blind_record domain

theorem blind_runDelay (frame : Frame) : Blind (runDelay frame) :=
  fun _ => (Run.Blind.compositionalOn frame.stack).delay

theorem blind_runIsPromise (frame : Frame) : Blind (runIsPromise frame) :=
  fun _ => (Run.Blind.compositionalOn frame.stack).isPromise

theorem blind_store (id : PromiseId) (value : Value) (stack : StackId) :
    Blind (do modify fun state => state.resolve id value
              Run.record (.promiseResolved id ((← get).valueText value))
              stack.push value) := by
  refine Blind.bind (fun _ _ _ => rfl) fun _ => blind_get (fun state limit memories => ?_) fun _ => ?_
  · rw [State.valueText, state.naming_lifted, State.valueText]
  · exact (blind_record _).bind fun _ => stack.blind_push value

end Operations

end LazyStack
