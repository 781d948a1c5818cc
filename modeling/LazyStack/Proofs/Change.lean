import LazyStack.Proofs.Correspondence
import LazyStack.Proofs.Mirror

/-!
What operations change. Each of them touches some of the things that a state keeps track of, and makes
others that it has not had; it leaves alone whatever it neither touches nor makes.
-/

namespace LazyStack

namespace State

def Has (state : State) : Thing → Prop
  | .domain id => id.index < state.domains.size
  | .entry domain tag => ((state.domain domain).names.get? tag).isSome
  | .scope id => id.index < state.scopes.size
  | .stack id => state.HasStack id
  | .promise id => state.HasPromise id
  | .host id => id.index < state.hosts.size
  | .memory id => id.index < state.hosts.size
  | .identity number => number < state.nextIdentity

theorem not_has_empty {limit : Nat} {thing : Thing} : ¬ (empty limit).Has thing := by
  cases thing <;> simp [empty, Has, HasStack, HasPromise, domain, Table.get?]

def Keeps (before after : State) : Thing → Prop
  | .domain id => after.domain id = before.domain id
  | .scope id => after.scope id = before.scope id
  | .stack id => after.operands id = before.operands id
  | .promise id => after.promise id = before.promise id
  | .host id => after.hostBody id = before.hostBody id ∧ after.memory id = before.memory id
  | .memory id => after.memory id = before.memory id
  | .entry _ _ => True
  | .identity _ => True

variable {thing : Thing}

theorem Keeps.refl (state : State) (thing : Thing) : state.Keeps state thing := by
  cases thing with
  | host => exact ⟨rfl, rfl⟩
  | entry => trivial
  | identity => trivial
  | _ => exact rfl

theorem Keeps.trans {first middle last : State} (earlier : first.Keeps middle thing)
    (later : middle.Keeps last thing) : first.Keeps last thing := by
  cases thing with
  | host => exact ⟨later.1.trans earlier.1, later.2.trans earlier.2⟩
  | entry => trivial
  | identity => trivial
  | _ => exact Eq.trans later earlier

/-- A state holds as before what it had, but for what is touched, and keeps track of what is made. -/
structure Becomes (touched made : List Thing) (before after : State) : Prop where
  has {thing : Thing} : after.Has thing ↔ before.Has thing ∨ thing ∈ made
  fresh {thing : Thing} : thing ∈ made → ¬ before.Has thing
  keeps {thing : Thing} : before.Has thing → thing ∉ touched → before.Keeps after thing
  bodies {id : HostId} : before.Has (.host id) → after.hostBody id = before.hostBody id
  names {id : DomainId} {tag : Tag} {name : String} :
    (before.domain id).names.get? tag = some name → (after.domain id).names.get? tag = some name
  counted : before.hostMemories.size = before.hosts.size → after.hostMemories.size = after.hosts.size
  callLimit : after.callLimit = before.callLimit

theorem becomes_setOperands (state : State) (stack : StackId) (values : Operands) :
    state.Becomes [.stack stack] [] (state.setOperands stack values) where
  has {thing} := by cases thing <;> simp [Has, domain, setOperands, HasStack, HasPromise]
  fresh made := by cases made
  keeps {thing} _ apart := by
    cases thing with
    | stack other =>
        rw [List.mem_singleton, Thing.stack.injEq] at apart
        exact operands_setOperands_of_ne state (fun same => apart same.symm) values
    | _ => trivial
  bodies _ := rfl
  names known := known
  counted sized := sized
  callLimit := rfl

theorem scope_setScope_self {state : State} {scope : ScopeId} (present : scope.index < state.scopes.size)
    (content : Scope) : (state.setScope scope content).scope scope = content := by
  simp [State.scope, setScope, present]

theorem becomes_setScope (state : State) (scope : ScopeId) (content : Scope) :
    state.Becomes [.scope scope] [] (state.setScope scope content) where
  has {thing} := by cases thing <;> simp [Has, domain, setScope, HasStack, HasPromise]
  fresh made := by cases made
  keeps {thing} _ apart := by
    cases thing with
    | scope other =>
        rw [List.mem_singleton, Thing.scope.injEq] at apart
        exact (state.scope_setScope scope other content).resolve_left fun same => apart same.1.symm
    | _ => trivial
  bodies _ := rfl
  names known := known
  counted sized := sized
  callLimit := rfl

theorem becomes_resolve (state : State) (id : PromiseId) (value : Value) :
    state.Becomes [.promise id] [] (state.resolve id value) where
  has {thing} := by cases thing <;> simp [Has, domain, resolve, HasStack, HasPromise]
  fresh made := by cases made
  keeps {thing} _ apart := by
    cases thing with
    | promise other =>
        rw [List.mem_singleton, Thing.promise.injEq] at apart
        exact promise_resolve_of_ne state (fun same => apart same.symm) value
    | _ => trivial
  bodies _ := rfl
  names known := known
  counted sized := sized
  callLimit := rfl

theorem memory_remember (state : State) (host other : HostId) (memory : Memory) :
    (state.remember host memory).memory other =
      if host = other ∧ host.index < state.hostMemories.size then memory else state.memory other := by
  obtain ⟨index⟩ := host
  obtain ⟨number⟩ := other
  simp only [State.memory, remember, Array.getElem?_setIfInBounds, HostId.mk.injEq]
  by_cases same : index = number
  · subst same
    by_cases bound : index < state.hostMemories.size
    · simp [bound]
    · simp [bound]
  · simp [same]

theorem becomes_remember (state : State) (host : HostId) (memory : Memory) :
    state.Becomes [.host host, .memory host] [] (state.remember host memory) where
  has {thing} := by cases thing <;> simp [Has, domain, remember, HasStack, HasPromise]
  fresh made := by cases made
  keeps {thing} _ apart := by
    have kept {other : HostId} (apart : host ≠ other) :
        (state.remember host memory).memory other = state.memory other := by
      rw [memory_remember, if_neg fun same => apart same.1]
    cases thing with
    | host other =>
        exact ⟨rfl, kept fun same => apart (same ▸ List.mem_cons_self)⟩
    | memory other =>
        exact kept fun same => apart (same ▸ List.mem_cons_of_mem _ (List.mem_singleton_self _))
    | _ => trivial
  bodies _ := rfl
  names known := known
  counted sized := by simpa [remember] using sized
  callLimit := rfl

def identifying (state : State) : State :=
  { state with nextIdentity := state.nextIdentity + 1 }

theorem becomes_identifying (state : State) :
    state.Becomes [] [.identity state.nextIdentity] state.identifying where
  has {thing} := by
    cases thing with
    | identity => simp only [Has, identifying, Nat.lt_succ_iff_lt_or_eq, List.mem_singleton, Thing.identity.injEq]
    | _ => simp [Has, domain, identifying, HasStack, HasPromise]
  fresh made := by
    rw [List.mem_singleton] at made
    subst made
    exact Nat.lt_irrefl _
  keeps {thing} _ _ := by
    cases thing <;> trivial
  bodies _ := rfl
  names known := known
  counted sized := sized
  callLimit := rfl

def scoping (state : State) (scope : Scope) : State :=
  { state with scopes := state.scopes.push scope }

theorem scope_scoping (state : State) (added : Scope) (id : ScopeId) :
    (state.scoping added).scope id = if id.index = state.scopes.size then added else state.scope id := by
  simp only [scope, scoping, Array.getElem?_push]
  split <;> rfl

theorem becomes_scoping (state : State) (added : Scope) :
    state.Becomes [] [.scope ⟨state.scopes.size⟩] (state.scoping added) where
  has {thing} := by
    cases thing with
    | scope id =>
        obtain ⟨index⟩ := id
        simp only [Has, scoping, Array.size_push, Nat.lt_succ_iff_lt_or_eq, List.mem_singleton,
          Thing.scope.injEq, ScopeId.mk.injEq]
    | _ => simp [Has, domain, scoping, HasStack, HasPromise]
  fresh made := by
    rw [List.mem_singleton] at made
    subst made
    exact Nat.lt_irrefl _
  keeps {thing} present _ := by
    cases thing with
    | scope id => exact (state.scope_scoping added id).trans (if_neg (Nat.ne_of_lt present))
    | _ => trivial
  bodies _ := rfl
  names known := known
  counted sized := sized
  callLimit := rfl

def stacking (state : State) : State :=
  { state with operandStacks := state.operandStacks.push [] }

theorem operands_stacking (state : State) (id : StackId) :
    state.stacking.operands id = if id.index = state.operandStacks.size then [] else state.operands id := by
  simp only [operands, stacking, Array.getElem?_push]
  split <;> rfl

theorem becomes_stacking (state : State) :
    state.Becomes [] [.stack ⟨state.operandStacks.size⟩] state.stacking where
  has {thing} := by
    cases thing with
    | stack id =>
        obtain ⟨index⟩ := id
        simp only [Has, HasStack, stacking, Array.size_push, Nat.lt_succ_iff_lt_or_eq, List.mem_singleton,
          Thing.stack.injEq, StackId.mk.injEq]
    | _ => simp [Has, domain, stacking, HasPromise]
  fresh made := by
    rw [List.mem_singleton] at made
    subst made
    exact Nat.lt_irrefl _
  keeps {thing} present _ := by
    cases thing with
    | stack id => exact (state.operands_stacking id).trans (if_neg (Nat.ne_of_lt present))
    | _ => trivial
  bodies _ := rfl
  names known := known
  counted sized := sized
  callLimit := rfl

theorem becomes_delaying (state : State) (added : Promise) :
    state.Becomes [] [.promise ⟨state.promises.size⟩] (state.delaying added) where
  has {thing} := by
    cases thing with
    | promise id =>
        obtain ⟨index⟩ := id
        simp only [Has, HasPromise, delaying, Array.size_push, Nat.lt_succ_iff_lt_or_eq, List.mem_singleton,
          Thing.promise.injEq, PromiseId.mk.injEq]
    | _ => simp [Has, domain, delaying, HasStack]
  fresh made := by
    rw [List.mem_singleton] at made
    subst made
    exact Nat.lt_irrefl _
  keeps {thing} present _ := by
    cases thing with
    | promise id => exact (state.promise_push added id).trans (if_neg (Nat.ne_of_lt present))
    | _ => trivial
  bodies _ := rfl
  names known := known
  counted sized := sized
  callLimit := rfl

def hosting (state : State) (body : HostBody) : State :=
  { state with hosts := state.hosts.push body, hostMemories := state.hostMemories.push .empty }

theorem hostBody_hosting (state : State) (body : HostBody) (id : HostId) :
    (state.hosting body).hostBody id = if id.index = state.hosts.size then body else state.hostBody id := by
  simp only [hostBody, hosting, Array.getElem?_push]
  split <;> rfl

theorem memory_hosting (state : State) (body : HostBody) (id : HostId) :
    (state.hosting body).memory id = state.memory id := by
  simp only [State.memory, hosting, Array.getElem?_push]
  split
  next same => simp [same]
  next => rfl

theorem memory_of_counted {state : State} (sized : state.hostMemories.size = state.hosts.size) :
    state.memory ⟨state.hosts.size⟩ = .empty := by
  simp [State.memory, sized]

theorem becomes_hosting (state : State) (body : HostBody) :
    state.Becomes [] [.host ⟨state.hosts.size⟩, .memory ⟨state.hosts.size⟩] (state.hosting body) where
  has {thing} := by
    cases thing with
    | host id =>
        obtain ⟨index⟩ := id
        simp only [Has, hosting, Array.size_push, Nat.lt_succ_iff_lt_or_eq, List.mem_pair, Thing.host.injEq,
          HostId.mk.injEq, reduceCtorEq, or_false]
    | memory id =>
        obtain ⟨index⟩ := id
        simp only [Has, hosting, Array.size_push, Nat.lt_succ_iff_lt_or_eq, List.mem_pair,
          Thing.memory.injEq, HostId.mk.injEq, reduceCtorEq, false_or]
    | _ => simp [Has, domain, hosting, HasStack, HasPromise]
  fresh made := by
    rw [List.mem_pair] at made
    rcases made with rfl | rfl <;> exact Nat.lt_irrefl _
  keeps {thing} present _ := by
    cases thing with
    | host id =>
        exact ⟨(state.hostBody_hosting body id).trans (if_neg (Nat.ne_of_lt present)),
          state.memory_hosting body id⟩
    | memory id => exact state.memory_hosting body id
    | _ => trivial
  bodies {id} present := (state.hostBody_hosting body id).trans (if_neg (Nat.ne_of_lt present))
  names known := known
  counted sized := by simp [hosting, sized]
  callLimit := rfl

def founding (state : State) (names : Table Tag String) : State :=
  { state with
    domains := state.domains.push
      ⟨names, ⟨⟨state.domains.size⟩, .null, .null true, state.nextIdentity⟩⟩
    nextIdentity := state.nextIdentity + 1 }

theorem domain_founding (state : State) (names : Table Tag String) (id : DomainId) :
    (state.founding names).domain id =
      if id.index = state.domains.size then
        ⟨names, ⟨⟨state.domains.size⟩, .null, .null true, state.nextIdentity⟩⟩
      else state.domain id := by
  simp only [domain, founding, Array.getElem?_push]
  split <;> rfl

theorem names_beyond (state : State) : (state.domain ⟨state.domains.size⟩).names = [] := by
  simp [domain]

theorem becomes_founding (state : State) (names : Table Tag String) :
    state.Becomes []
      (.domain ⟨state.domains.size⟩ :: .identity state.nextIdentity ::
        names.keys.map (.entry ⟨state.domains.size⟩))
      (state.founding names) where
  has {thing} := by
    cases thing with
    | domain id =>
        obtain ⟨index⟩ := id
        simp only [Has, founding, Array.size_push, Nat.lt_succ_iff_lt_or_eq, List.mem_cons, List.mem_map,
          Thing.domain.injEq, DomainId.mk.injEq, reduceCtorEq, and_false, exists_false, or_false]
    | entry id tag =>
        simp only [Has, domain_founding, List.mem_cons, List.mem_map, reduceCtorEq, false_or,
          Thing.entry.injEq]
        obtain ⟨index⟩ := id
        by_cases new : index = state.domains.size
        · subst new
          rw [if_pos rfl, names_beyond, Table.get?_isSome_iff]
          simp [Table.get?]
        · rw [if_neg new]
          simp [Ne.symm new]
    | identity =>
        simp only [Has, founding, Nat.lt_succ_iff_lt_or_eq, List.mem_cons, List.mem_map,
          Thing.identity.injEq, reduceCtorEq, and_false, exists_false, or_false, false_or]
    | _ => simp [Has, founding, HasStack, HasPromise]
  fresh {thing} made := by
    simp only [List.mem_cons, List.mem_map] at made
    rcases made with rfl | rfl | ⟨tag, _, rfl⟩
    · exact Nat.lt_irrefl _
    · exact Nat.lt_irrefl _
    · rw [Has, names_beyond]
      exact Bool.false_ne_true
  keeps {thing} present _ := by
    cases thing with
    | domain id => exact (state.domain_founding names id).trans (if_neg (Nat.ne_of_lt present))
    | _ => trivial
  bodies _ := rfl
  names {id} _ _ known := by
    obtain ⟨index⟩ := id
    rw [domain_founding, if_neg]
    · exact known
    · rintro rfl
      rw [names_beyond] at known
      cases known
  counted sized := sized
  callLimit := rfl

def setDomain (state : State) (id : DomainId) (content : Domain) : State :=
  { state with domains := state.domains.setIfInBounds id.index content }

theorem domain_setDomain (state : State) (id other : DomainId) (content : Domain) :
    (state.setDomain id content).domain other =
      if id = other ∧ id.index < state.domains.size then content else state.domain other := by
  obtain ⟨index⟩ := id
  obtain ⟨number⟩ := other
  simp only [domain, setDomain, Array.getElem?_setIfInBounds, DomainId.mk.injEq]
  by_cases same : index = number
  · subst same
    by_cases bound : index < state.domains.size
    · simp [bound]
    · simp [bound]
  · simp [same]

theorem becomes_setDomain {state : State} {id : DomainId} {content : Domain} {tag : Tag} {name : String}
    (present : state.Has (.domain id)) (new : (state.domain id).names.get? tag = none)
    (names : content.names = (state.domain id).names.put tag name) :
    state.Becomes [.domain id] [.entry id tag] (state.setDomain id content) where
  has {thing} := by
    cases thing with
    | entry other like =>
        simp only [Has, domain_setDomain, List.mem_singleton, Thing.entry.injEq]
        by_cases same : id = other
        · subst same
          have absent : tag ∉ (state.domain id).names.keys := by
            rw [← Table.get?_isSome_iff, new]
            exact Bool.false_ne_true
          rw [if_pos ⟨rfl, present⟩, names, Table.get?_isSome_iff, Table.get?_isSome_iff, Table.keys_put,
            if_neg absent, List.mem_append, List.mem_singleton]
          simp
        · rw [if_neg fun both => same both.1]
          simp [Ne.symm same]
    | _ => simp [Has, setDomain, HasStack, HasPromise]
  fresh made := by
    rw [List.mem_singleton] at made
    subst made
    rw [Has, new]
    exact Bool.false_ne_true
  keeps {thing} _ apart := by
    cases thing with
    | domain other =>
        rw [List.mem_singleton, Thing.domain.injEq] at apart
        exact (state.domain_setDomain id other content).trans (if_neg fun both => apart both.1.symm)
    | _ => trivial
  bodies _ := rfl
  names {other like _} known := by
    rw [domain_setDomain]
    split
    next same =>
      obtain ⟨rfl, _⟩ := same
      rw [names, Table.get?_put_of_ne]
      · exact known
      · rintro rfl
        rw [new] at known
        cases known
    next => exact known
  counted sized := sized
  callLimit := rfl

theorem becomes_record (state : State) (event : Event) : state.Becomes [] [] (state.record event) where
  has {thing} := by cases thing <;> simp [Has, domain, record, HasStack, HasPromise]
  fresh made := by cases made
  keeps {thing} _ _ := by cases thing <;> trivial
  bodies _ := rfl
  names known := known
  counted sized := sized
  callLimit := rfl

end State

end LazyStack
