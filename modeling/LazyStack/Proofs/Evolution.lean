import LazyStack.Proofs.Run

/-!
Evolution of the state. A relation of states is an evolution when it is reflexive and transitive and
holds across every single effect of a run but one, the storing of a promise's value. Every operation
that neither calls nor runs code keeps each evolution.
-/

namespace LazyStack

structure Evolution (relation : State → State → Prop) : Prop where
  refl (state : State) : relation state state
  trans {first middle last : State} :
    relation first middle → relation middle last → relation first last
  operands (state : State) (stack : StackId) (operands : Operands) :
    relation state (state.setOperands stack operands)
  binding (state : State) (scope : ScopeId) (name : String) (binding : Binding) :
    relation state (state.bind scope name binding)
  identity (state : State) : relation state { state with nextIdentity := state.nextIdentity + 1 }
  scope (state : State) (parent : Option ScopeId) :
    relation state { state with scopes := state.scopes.push ⟨[], parent⟩ }
  stack (state : State) : relation state { state with operandStacks := state.operandStacks.push [] }
  promise (state : State) (scope : ScopeId) (body : List Step) :
    relation state { state with promises := state.promises.push (.pending scope body) }
  record (state : State) (event : Event) : relation state (state.record event)
  remember (state : State) (host : HostId) (memory : Memory) : relation state (state.remember host memory)

/-- A run across which a relation holds from any state, whether it succeeds or fails. -/
def Run.Keeps {α : Type} (relation : State → State → Prop) (run : Run α) : Prop :=
  ∀ state, relation state (run.after state)

theorem Run.Keeps.of_ok {α : Type} {relation : State → State → Prop} {run : Run α}
    (keeps : Run.Keeps relation run) {state final : State} {result : α}
    (ran : run state = .ok result final) : relation state final := by
  rw [← Run.after_of_ok ran]
  exact keeps state

namespace Evolution

variable {relation : State → State → Prop} (evolution : Evolution relation) {α β : Type}
include evolution

theorem keeps_of_reads {run : Run α} (reads : Run.Reads run) : Run.Keeps relation run := by
  intro state
  rw [reads state]
  exact evolution.refl state

theorem after_bind {run : Run α} {next : α → Run β} {state : State}
    (first : relation state (run.after state))
    (rest : ∀ result middle, run state = .ok result middle →
      relation middle ((next result).after middle)) :
    relation state ((run >>= next).after state) := by
  rw [Run.after_bind]
  rw [Run.after] at first
  cases outcome : run state with
  | ok result middle =>
      rw [outcome] at first
      exact evolution.trans first (rest result middle outcome)
  | error failure middle =>
      rw [outcome] at first
      exact first

theorem keeps_bind {run : Run α} {next : α → Run β} (first : Run.Keeps relation run)
    (rest : ∀ result, Run.Keeps relation (next result)) : Run.Keeps relation (run >>= next) :=
  fun state => evolution.after_bind (first state) fun result middle _ => rest result middle

theorem keeps_pure (result : α) : Run.Keeps relation (pure result : Run α) :=
  evolution.keeps_of_reads (Run.reads_pure result)

theorem keeps_throw (failure : Failure) : Run.Keeps relation (throw failure : Run α) :=
  evolution.keeps_of_reads (Run.reads_throw failure)

theorem keeps_get : Run.Keeps relation (get : Run State) :=
  evolution.keeps_of_reads Run.reads_get

theorem keeps_show (shown : State → Written α) :
    Run.Keeps relation (do Run.written (shown (← get)) : Run α) :=
  evolution.keeps_of_reads (Run.reads_show shown)

theorem keeps_push (stack : StackId) (value : Value) : Run.Keeps relation (stack.push value) :=
  fun state => evolution.operands state stack _

theorem keeps_pop (stack : StackId) : Run.Keeps relation stack.pop := by
  intro state
  cases present : state.operands stack with
  | nil =>
      rw [Run.after_of_error (stack.pop_of_nil state present)]
      exact evolution.refl state
  | cons value rest =>
      rw [Run.after_of_ok (stack.pop_of_cons state present)]
      exact evolution.operands state stack rest

theorem keeps_popMany (stack : StackId) (count : Int) : Run.Keeps relation (stack.popMany count) := by
  intro state
  rw [Run.after, StackId.popMany_apply]
  split
  next ran =>
    split at ran
    · cases ran
    · cases ran
      exact evolution.operands state stack _
  next failed =>
    split at failed
    · cases failed
      exact evolution.refl state
    · cases failed

theorem keeps_size (stack : StackId) : Run.Keeps relation stack.size :=
  fun state => evolution.refl state

theorem keeps_bindName (scope : ScopeId) (name : String) (binding : Binding) :
    Run.Keeps relation (scope.bind name binding) :=
  fun state => evolution.binding state scope name binding

theorem keeps_rebind (scope : ScopeId) (name : String) (binding : Binding) :
    Run.Keeps relation (scope.rebind name binding) := by
  rw [ScopeId.rebind]
  refine evolution.keeps_bind evolution.keeps_get fun reached => ?_
  cases reached.owner? scope name with
  | some owner => exact evolution.keeps_bindName owner name binding
  | none => exact evolution.keeps_throw _

theorem keeps_freshValue (domain : DomainId) (tag : Tag) (payload : Payload) :
    Run.Keeps relation (Run.freshValue domain tag payload) :=
  fun state => evolution.identity state

theorem keeps_create (domain : DomainId) (tag : Tag) (payload : Payload) :
    Run.Keeps relation (domain.create tag payload) := by
  rw [DomainId.create]
  refine evolution.keeps_bind (evolution.keeps_of_reads (domain.reads_typeName tag)) fun name => ?_
  split
  · exact evolution.keeps_freshValue domain tag payload
  · exact evolution.keeps_bind evolution.keeps_get fun reached => evolution.keeps_throw _

theorem keeps_expect (value : Value) (tag : Tag) (description : String) :
    Run.Keeps relation (value.expect tag description) :=
  evolution.keeps_of_reads (value.reads_expect tag description)

theorem keeps_record (event : Event) : Run.Keeps relation (Run.record event) :=
  fun state => evolution.record state event

theorem keeps_count (host : HostId) : Run.Keeps relation (Run.count host) :=
  fun state => evolution.remember state host _

theorem keeps_keep (host : HostId) (frame : Frame) : Run.Keeps relation (Run.keep host frame) :=
  fun state => evolution.remember state host _

theorem keeps_newScope (parent : Option ScopeId) : Run.Keeps relation (Run.newScope parent) :=
  fun state => evolution.scope state parent

theorem keeps_newStack : Run.Keeps relation Run.newStack :=
  fun state => evolution.stack state

theorem keeps_newLocalFrame (parent : Option ScopeId) (depth : Int) :
    Run.Keeps relation (Run.newLocalFrame parent depth) :=
  evolution.keeps_bind (evolution.keeps_newScope parent) fun _ =>
    evolution.keeps_bind evolution.keeps_newStack fun _ => evolution.keeps_pure _

theorem keeps_newTopFrame (scope : ScopeId) : Run.Keeps relation (Run.newTopFrame scope) :=
  evolution.keeps_bind evolution.keeps_newStack fun _ => evolution.keeps_pure _

theorem keeps_newPromise (scope : ScopeId) (body : List Step) :
    Run.Keeps relation (Run.newPromise scope body) :=
  fun state => evolution.promise state scope body

end Evolution

end LazyStack
