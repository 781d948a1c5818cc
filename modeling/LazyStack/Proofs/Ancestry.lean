import LazyStack.Proofs.GroundedOperation
import LazyStack.Proofs.ScopeTree

/-!
The ancestry of scopes. The heap has cycles, since a scope may bind closures and promises made over itself, but a
parent is always older than its children. So the way from a scope outward comes to an end, and each search for a name
on it, without coming by the same scope again.
-/

namespace LazyStack

namespace State

/-- The scopes from one outward, each followed by its parent, up to one that has none. -/
inductive Lineage (state : State) : ScopeId → List ScopeId → Prop
  | outermost {scope} : (state.scope scope).parent = none → Lineage state scope [scope]
  | within {scope parent around} : (state.scope scope).parent = some parent → Lineage state parent around →
      Lineage state scope (scope :: around)

/-- The search for a name from a scope outward, with the scopes that it visits and the one where it finds the name. -/
inductive Searches (state : State) (name : String) : ScopeId → List ScopeId → Option ScopeId → Prop
  | found {scope} : state.binds name scope = true → Searches state name scope [scope] (some scope)
  | missed {scope} : state.binds name scope = false → (state.scope scope).parent = none →
      Searches state name scope [scope] none
  | onward {scope parent visited owner} : state.binds name scope = false →
      (state.scope scope).parent = some parent → Searches state name parent visited owner →
      Searches state name scope (scope :: visited) owner

/-- The search for a name from a scope ends in one way, at no scope twice, and what is done by name follows it. -/
structure SearchEnds (state : State) (scope : ScopeId) (name : String) (visited : List ScopeId)
    (owner : Option ScopeId) : Prop where
  only {others : List ScopeId} {result : Option ScopeId} :
    state.Searches name scope others result ↔ others = visited ∧ result = owner
  once : visited.Nodup
  get : scope.lookup name state =
    (owner.bind fun found => (state.scope found).bindings.get? name).elim (.error (.unboundLookup name) state)
      fun binding => .ok binding state
  set (binding : Binding) : scope.rebind name binding state =
    owner.elim (.error (.unboundRebind name) state) fun found => .ok () (state.bind found name binding)
  contains : state.hops? scope name = owner.map fun _ => visited.length - 1

variable {state : State} {scope : ScopeId} {name : String} {visited others chain : List ScopeId}
  {owner result : Option ScopeId}

theorem Lineage.unique (one : state.Lineage scope visited) (two : state.Lineage scope others) : others = visited := by
  induction one generalizing others with
  | outermost alone =>
      cases two with
      | outermost => rfl
      | within around _ => cases alone.symm.trans around
  | within around _ ih =>
      cases two with
      | outermost alone => cases alone.symm.trans around
      | within again further =>
          cases around.symm.trans again
          rw [ih further]

theorem Searches.unique (one : state.Searches name scope visited owner)
    (two : state.Searches name scope others result) : others = visited ∧ result = owner := by
  induction one generalizing others result with
  | found binds =>
      cases two with
      | found => exact ⟨rfl, rfl⟩
      | missed unbound _ => cases binds.symm.trans unbound
      | onward unbound _ _ => cases binds.symm.trans unbound
  | missed unbound alone =>
      cases two with
      | found binds => cases binds.symm.trans unbound
      | missed => exact ⟨rfl, rfl⟩
      | onward _ around _ => cases alone.symm.trans around
  | onward unbound around _ ih =>
      cases two with
      | found binds => cases binds.symm.trans unbound
      | missed _ alone => cases alone.symm.trans around
      | onward _ again further =>
          cases around.symm.trans again
          obtain ⟨rfl, same⟩ := ih further
          exact ⟨rfl, same⟩

theorem Searches.length_pos (searches : state.Searches name scope visited owner) : 0 < visited.length := by
  cases searches <;> exact Nat.succ_pos _

theorem Searches.front_of_lineage (searches : state.Searches name scope visited owner)
    (lineage : state.Lineage scope chain) : visited <+: chain := by
  induction searches generalizing chain with
  | found => cases lineage <;> exact ⟨_, rfl⟩
  | missed => cases lineage <;> exact ⟨_, rfl⟩
  | onward _ around _ ih =>
      cases lineage with
      | outermost alone => cases alone.symm.trans around
      | within again outward =>
          cases around.symm.trans again
          exact List.cons_prefix_cons.mpr ⟨rfl, ih outward⟩

section Outward

variable (older : ∀ scope, state.ParentOlder scope)
include older

theorem lineage_chain (scope : ScopeId) : state.Lineage scope (state.chain scope) := by
  induction scope using parent_induction older with
  | step scope ih =>
      cases around : (state.scope scope).parent with
      | none =>
          rw [chain, chainUpTo_outermost around]
          exact .outermost around
      | some parent =>
          rw [chain_of_parent older around]
          exact .within around (ih parent around)

theorem Lineage.descends (lineage : state.Lineage scope chain) :
    (∀ outer ∈ chain, outer.index ≤ scope.index) ∧ chain.Pairwise fun inner outer => outer.index < inner.index := by
  induction lineage with
  | outermost => simp
  | @within scope parent chain around _ ih =>
      have younger := older scope parent around
      obtain ⟨bounded, descends⟩ := ih
      have below : ∀ outer ∈ chain, outer.index < scope.index := fun outer member =>
        Nat.lt_of_le_of_lt (bounded outer member) younger
      refine ⟨fun outer member => ?_, List.pairwise_cons.mpr ⟨below, descends⟩⟩
      rcases List.mem_cons.mp member with rfl | further
      · exact Nat.le_refl _
      · exact Nat.le_of_lt (below outer further)

theorem Lineage.nodup (lineage : state.Lineage scope chain) : chain.Nodup := by
  refine (lineage.descends older).2.imp ?_
  rintro inner outer lower rfl
  exact Nat.lt_irrefl _ lower

theorem hops?_eq (scope : ScopeId) (name : String) :
    state.hops? scope name = if state.binds name scope then some 0
      else (state.scope scope).parent.bind fun parent => (state.hops? parent name).map (· + 1) := by
  rw [hops?]
  cases around : (state.scope scope).parent with
  | none =>
      rw [chain, chainUpTo_outermost around, List.findIdx?_cons]
      cases state.binds name scope <;> rfl
  | some parent =>
      rw [chain_of_parent older around, List.findIdx?_cons]
      cases state.binds name scope <;> rfl

theorem exists_searches (scope : ScopeId) (name : String) :
    ∃ visited owner, state.Searches name scope visited owner := by
  induction scope using parent_induction older with
  | step scope ih =>
      cases bound : state.binds name scope with
      | true => exact ⟨_, _, .found bound⟩
      | false =>
          cases around : (state.scope scope).parent with
          | none => exact ⟨_, _, .missed bound around⟩
          | some parent =>
              obtain ⟨visited, owner, searches⟩ := ih parent around
              exact ⟨_, _, .onward bound around searches⟩

theorem Searches.owner?_eq (searches : state.Searches name scope visited owner) :
    state.owner? scope name = owner := by
  induction searches with
  | found bound => rw [State.owner?_eq older, bound, if_pos rfl]
  | missed unbound alone =>
      rw [State.owner?_eq older, unbound, alone]
      rfl
  | onward unbound around _ ih =>
      rw [State.owner?_eq older, unbound, around]
      exact ih

theorem Searches.hops?_eq (searches : state.Searches name scope visited owner) :
    state.hops? scope name = owner.map fun _ => visited.length - 1 := by
  induction searches with
  | found bound =>
      rw [State.hops?_eq older, bound, if_pos rfl]
      rfl
  | missed unbound alone =>
      rw [State.hops?_eq older, unbound, alone]
      rfl
  | @onward scope parent visited owner unbound around further ih =>
      have links : visited.length - 1 + 1 = visited.length := Nat.sub_add_cancel further.length_pos
      rw [State.hops?_eq older, unbound, around, if_neg Bool.false_ne_true, Option.bind_some, ih, Option.map_map]
      simp only [Function.comp_def, links, List.length_cons, Nat.add_sub_cancel]

theorem Searches.ends (searches : state.Searches name scope visited owner) :
    state.SearchEnds scope name visited owner where
  only {others result} := by
    refine ⟨searches.unique, ?_⟩
    rintro ⟨rfl, rfl⟩
    exact searches
  once :=
    have lineage := lineage_chain older scope
    (searches.front_of_lineage lineage).sublist.nodup (lineage.nodup older)
  get := by
    rw [ScopeId.lookup_apply, State.lookup?, searches.owner?_eq older]
    cases owner.bind fun found => (state.scope found).bindings.get? name <;> rfl
  set binding := by
    rw [ScopeId.rebind_apply, searches.owner?_eq older]
    cases owner <;> rfl
  contains := searches.hops?_eq older

end Outward

end State

theorem Operation.Feasible.grounded {operations : List Operation} {limit : Nat} {state : State}
    (feasible : Operation.Feasible operations (.empty limit))
    (reached : state = State.through operations (.empty limit) ∨
      ∃ moment, Operation.Arises operations (.empty limit) moment ∧ moment.state = state) : state.Grounded := by
  rcases reached with rfl | ⟨moment, arises, rfl⟩
  · exact (State.grounded_empty limit).through feasible
  · exact (arises.grounded (State.grounded_empty limit) feasible).state

/-- In every state that feasible operations lead to, or that comes up while they run, the parents of a scope form a
chain that ends and holds no scope twice. So the search for any name ends, and what is done by name follows it. -/
theorem scope_chains_end {operations : List Operation} {limit : Nat} {state : State}
    (feasible : Operation.Feasible operations (.empty limit))
    (reached : state = State.through operations (.empty limit) ∨
      ∃ moment, Operation.Arises operations (.empty limit) moment ∧ moment.state = state)
    (scope : ScopeId) :
    ∃ chain, (∀ visited, state.Lineage scope visited ↔ visited = chain) ∧ chain.Nodup ∧
      (scope.index < state.scopes.size → ∀ outer ∈ chain, outer.index < state.scopes.size) ∧
      (∃ names, state.scopeSummary scope = "<Scope " ++ names ++ s!" depth={chain.length - 1}>") ∧
      ∀ name, ∃ visited owner, state.SearchEnds scope name visited owner ∧ visited <+: chain := by
  have older : ∀ scope, state.ParentOlder scope := fun _ _ inside => (feasible.grounded reached).older inside
  have lineage := state.lineage_chain older scope
  refine ⟨state.chain scope, fun visited => ⟨lineage.unique, ?_⟩, lineage.nodup older, ?_, ?_, fun name => ?_⟩
  · rintro rfl
    exact lineage
  · intro present outer member
    exact Nat.lt_of_le_of_lt ((lineage.descends older).1 outer member) present
  · refine ⟨"[" ++ String.intercalate ", " (((state.scope scope).bindings.keys.mergeSort fun left right =>
      left ≤ right).map quoteText) ++ "]", ?_⟩
    simp only [State.scopeSummary, String.append_assoc]
    rfl
  · obtain ⟨visited, owner, searches⟩ := State.exists_searches older scope name
    exact ⟨visited, owner, searches.ends older, searches.front_of_lineage lineage⟩

def selfCapturing : List Operation :=
  [.addEnvironment none, .addScope (some ⟨0⟩),
    .setGlobal ⟨⟨0⟩, ⟨0⟩⟩ "again" (.callable (.closure ⟨0⟩ [.get "again"] [])),
    .addPromise ⟨1⟩ [.get "again"],
    .act 1 (.act (.bind ⟨1⟩ "later" (.callable (.promise ⟨0⟩))) .done),
    .addHost ⟨⟨0⟩, ⟨0⟩⟩ "bind" LibraryHost.bind.header fun self => LibraryHost.bind.body ⟨0⟩ self,
    .addTopFrame ⟨1⟩, .run ⟨⟨1⟩, ⟨0⟩, 0⟩ [.get "later"]]

theorem selfCapturing_feasible : Operation.Feasible selfCapturing (.empty 3) := by
  refine ⟨trivial, ?_, ⟨?_, ?_, trivial, trivial⟩, ⟨?_, trivial, trivial⟩, ⟨⟨?_, trivial⟩, fun _ _ _ _ => trivial⟩,
    ⟨?_, fun self => LibraryHost.body_below .bind ⟨0⟩ self _⟩, ?_, ⟨?_, trivial, trivial⟩, trivial⟩
  · rintro _ ⟨⟩
    decide +kernel
  all_goals
    change _ < _
    decide +kernel

theorem scope_chains_end_of_selfCapturing :
    Operation.Feasible selfCapturing (.empty 3) ∧
      (State.through selfCapturing (.empty 3)).scopes.size = 5 ∧
      ∃ visited owner, (State.through selfCapturing (.empty 3)).SearchEnds ⟨2⟩ "missing" visited owner ∧
        visited <+: [⟨2⟩, ⟨1⟩, ⟨0⟩] := by
  obtain ⟨chain, only, -, -, -, search⟩ := scope_chains_end selfCapturing_feasible (.inl rfl) ⟨2⟩
  have lineage : (State.through selfCapturing (.empty 3)).Lineage ⟨2⟩ [⟨2⟩, ⟨1⟩, ⟨0⟩] :=
    .within (by decide +kernel) (.within (by decide +kernel) (.outermost (by decide +kernel)))
  rw [(only _).mp lineage]
  exact ⟨selfCapturing_feasible, by decide +kernel, search "missing"⟩

end LazyStack
