import LazyStack.Proofs.Resemblance

/-!
Lookup and update on a tree of scopes. Scopes are shared by all that lie within them, so what is bound in one is found
from another if it lies around it and no nearer scope binds the name as well. Looking up, asking and rebinding follow
the same way outward, and rebinding is binding in the scope at its end.
-/

namespace LazyStack

namespace State

/-- A scope is seen under a name from itself, and through every scope within it that does not bind the name. -/
inductive Sees (state : State) (name : String) : ScopeId → ScopeId → Prop
  | here {scope} : Sees state name scope scope
  | outward {scope parent outer} :
      (state.scope scope).parent = some parent → state.binds name scope = false →
      Sees state name parent outer → Sees state name scope outer

/-- The scope that a name belongs to: the nearest one around that binds it. -/
def Owns (state : State) (name : String) (scope owner : ScopeId) : Prop :=
  state.Sees name scope owner ∧ state.binds name owner = true

variable {state : State} {scope other owner : ScopeId} {name wanted : String} {binding : Binding}

section Outward

variable (older : ∀ scope, state.ParentOlder scope)
include older

theorem parent_induction {motive : ScopeId → Prop}
    (step : ∀ scope, (∀ parent, (state.scope scope).parent = some parent → motive parent) → motive scope)
    (scope : ScopeId) : motive scope := by
  induction number : scope.index using Nat.strongRecOn generalizing scope with
  | ind index ih =>
      subst number
      exact step scope fun parent around => ih parent.index (older scope parent around) parent rfl

theorem chainUpTo_of_enough {links more : Nat} (enough : scope.index ≤ links) (plenty : scope.index ≤ more) :
    state.chainUpTo links scope = state.chainUpTo more scope := by
  induction links generalizing scope more with
  | zero =>
      have outermost : (state.scope scope).parent = none := by
        cases around : (state.scope scope).parent with
        | none => rfl
        | some parent =>
            have younger := older scope parent around
            omega
      rw [chainUpTo_outermost outermost, chainUpTo_outermost outermost]
  | succ links ih =>
      cases around : (state.scope scope).parent with
      | none => rw [chainUpTo_outermost around, chainUpTo_outermost around]
      | some parent =>
          have younger := older scope parent around
          cases more with
          | zero => omega
          | succ more =>
              rw [chainUpTo, chainUpTo, around]
              exact congrArg (scope :: ·) (ih (by omega) (by omega))

theorem chain_of_parent {parent : ScopeId} (around : (state.scope scope).parent = some parent) :
    state.chain scope = scope :: state.chain parent := by
  have younger := older scope parent around
  obtain ⟨links, same⟩ := Nat.exists_eq_add_of_lt younger
  rw [chain, same, chainUpTo, around]
  exact congrArg (scope :: ·) (chainUpTo_of_enough older (by omega) (by omega))

theorem owner?_eq (scope : ScopeId) (name : String) :
    state.owner? scope name = if state.binds name scope then some scope
      else (state.scope scope).parent.bind fun parent => state.owner? parent name := by
  rw [owner?]
  cases around : (state.scope scope).parent with
  | none =>
      rw [chain, chainUpTo_outermost around, List.find?_cons]
      cases state.binds name scope <;> rfl
  | some parent =>
      rw [chain_of_parent older around, List.find?_cons]
      cases state.binds name scope <;> rfl

theorem owner?_eq_some_iff : state.owner? scope name = some owner ↔ state.Owns name scope owner := by
  constructor
  · intro found
    induction scope using parent_induction older with
    | step scope ih =>
        rw [owner?_eq older] at found
        cases bound : state.binds name scope with
        | true =>
            rw [bound] at found
            cases found
            exact ⟨.here, bound⟩
        | false =>
            simp only [bound, Bool.false_eq_true, if_false, Option.bind_eq_some_iff] at found
            obtain ⟨parent, around, further⟩ := found
            obtain ⟨sees, binds⟩ := ih parent around further
            exact ⟨.outward around bound sees, binds⟩
  · rintro ⟨sees, binds⟩
    induction sees with
    | here => rw [owner?_eq older, binds, if_pos rfl]
    | outward around unbound _ ih =>
        rw [owner?_eq older, unbound, around]
        exact ih binds

theorem lookup?_eq (scope : ScopeId) (name : String) :
    state.lookup? scope name = ((state.scope scope).bindings.get? name).or
      ((state.scope scope).parent.bind fun parent => state.lookup? parent name) := by
  rw [lookup?, owner?_eq older, binds]
  cases bound : (state.scope scope).bindings.get? name with
  | none => cases around : (state.scope scope).parent <;> rfl
  | some found => exact bound

end Outward

section Bind

variable (present : scope.index < state.scopes.size)
include present

theorem get?_bind_self : ((state.bind scope name binding).scope scope).bindings.get? name = some binding := by
  rw [bind, scope_setScope_self present]
  exact Table.get?_put_self _ _ _

omit present in
theorem get?_bind_other (apart : ¬ (other = scope ∧ wanted = name)) :
    ((state.bind scope name binding).scope other).bindings.get? wanted =
      (state.scope other).bindings.get? wanted := by
  by_cases same : other = scope
  · subst same
    have unequal : name ≠ wanted := fun equal => apart ⟨rfl, equal.symm⟩
    rw [bind]
    rcases scope_setScope state other other _ with ⟨-, changed⟩ | unchanged
    · rw [changed]
      exact Table.get?_put_of_ne unequal _ _
    · rw [unchanged]
  · rw [bind, (scope_setScope state scope other _).resolve_left fun both => same both.1.symm]

omit present in
theorem parentOlder_bind (older : ∀ scope, state.ParentOlder scope) (within : ScopeId) :
    (state.bind scope name binding).ParentOlder within := by
  rw [ParentOlder, parent_bind]
  exact older within

theorem lookup?_bind_seen (older : ∀ scope, state.ParentOlder scope) (sees : state.Sees name other scope) :
    (state.bind scope name binding).lookup? other name = some binding := by
  have still : ∀ within, (state.bind scope name binding).ParentOlder within := parentOlder_bind older
  induction sees with
  | here =>
      rw [lookup?_eq still, get?_bind_self present]
      rfl
  | @outward within parent outer around unbound _ ih =>
      by_cases same : within = outer
      · subst same
        rw [lookup?_eq still, get?_bind_self present]
        rfl
      · have free : (state.scope within).bindings.get? name = none := by
          rwa [binds, Option.isSome_eq_false_iff, Option.isNone_iff_eq_none] at unbound
        rw [lookup?_eq still, get?_bind_other fun both => same both.1, free, parent_bind, around]
        exact ih present still

omit present in
theorem lookup?_bind_unseen (older : ∀ scope, state.ParentOlder scope)
    (unseen : ¬ (wanted = name ∧ state.Sees name other scope)) :
    (state.bind scope name binding).lookup? other wanted = state.lookup? other wanted := by
  have still : ∀ within, (state.bind scope name binding).ParentOlder within := parentOlder_bind older
  induction other using parent_induction older with
  | step other ih =>
      have apart : ¬ (other = scope ∧ wanted = name) := by
        rintro ⟨rfl, same⟩
        exact unseen ⟨same, .here⟩
      rw [lookup?_eq still, lookup?_eq older, get?_bind_other apart, parent_bind]
      cases bound : (state.scope other).bindings.get? wanted with
      | some found => rfl
      | none => cases around : (state.scope other).parent with
          | none => rfl
          | some parent =>
              refine ih parent around ?_
              rintro ⟨rfl, sees⟩
              exact unseen ⟨rfl, .outward around (by rw [binds, bound, Option.isSome_none]) sees⟩

omit present in
theorem keys_bind_of_binds (bound : state.binds name scope = true) (any : ScopeId) :
    ((state.bind scope name binding).scope any).bindings.keys = (state.scope any).bindings.keys := by
  rw [bind]
  rcases scope_setScope state scope any _ with ⟨same, changed⟩ | unchanged
  · subst same
    rw [changed]
    exact (Table.keys_put _ _ _).trans (if_pos (Table.get?_isSome_iff.mp bound))
  · rw [unchanged]

end Bind

theorem lookup?_isSome (state : State) (scope : ScopeId) (name : String) :
    (state.lookup? scope name).isSome = (state.owner? scope name).isSome := by
  rw [lookup?]
  cases found : state.owner? scope name with
  | none => rfl
  | some owner => exact List.find?_some (p := state.binds name) found

theorem hops?_isSome (state : State) (scope : ScopeId) (name : String) :
    (state.hops? scope name).isSome = (state.owner? scope name).isSome := by
  rw [Bool.eq_iff_iff, hops?, owner?, List.findIdx?_isSome, List.any_eq_true, List.find?_isSome]

end State

namespace ScopeId

theorem rebind_apply (scope : ScopeId) (name : String) (binding : Binding) (state : State) :
    scope.rebind name binding state =
      match state.owner? scope name with
      | some owner => .ok () (state.bind owner name binding)
      | none => .error (.unboundRebind name) state := by
  rw [rebind, Run.bind_of_ok (Run.get_apply state)]
  cases state.owner? scope name <;> rfl

theorem outcome_lookup (scope : ScopeId) (name : String) (state : State) :
    Run.outcome (scope.lookup name) state =
      .ok (match state.lookup? scope name with
        | some found => .ok found
        | none => .error (.unboundLookup name)) state := by
  rw [Run.outcome, lookup_apply]
  cases state.lookup? scope name <;> rfl

variable {scope : ScopeId} {state : State} {name : Literal}

theorem exists_lookupLiteral_iff :
    (∃ found after, scope.lookupLiteral name state = .ok found after) ↔
      ∃ text, name = .text text ∧ (state.owner? scope text).isSome := by
  cases name with
  | text text =>
      rw [lookupLiteral, Literal.name?]
      simp only [lookup_apply, Literal.text.injEq, exists_eq_left']
      rw [← State.lookup?_isSome]
      cases state.lookup? scope text <;> simp
  | _ => exact iff_of_false nofun nofun

theorem exists_rebindLiteral_iff {binding : Binding} :
    (∃ after, scope.rebindLiteral name binding state = .ok () after) ↔
      ∃ text, name = .text text ∧ (state.owner? scope text).isSome := by
  cases name with
  | text text =>
      rw [rebindLiteral, Literal.name?]
      simp only [rebind_apply, Literal.text.injEq, exists_eq_left']
      cases state.owner? scope text <;> simp
  | _ => exact iff_of_false nofun nofun

theorem isSome_hops?_iff :
    (name.name?.bind (state.hops? scope)).isSome ↔
      ∃ text, name = .text text ∧ (state.owner? scope text).isSome := by
  cases name with
  | text text => simp [Literal.name?, State.hops?_isSome]
  | _ => simp [Literal.name?]

end ScopeId

def truthBinding (truth : Bool) : Binding :=
  .value ⟨⟨0⟩, .bool, .bool truth, 1⟩

def shadowedTree : State :=
  { State.empty 125 with scopes := #[⟨[("x", truthBinding true)], none⟩, ⟨[("x", truthBinding true)], some ⟨0⟩⟩,
      ⟨[], some ⟨0⟩⟩, ⟨[], some ⟨1⟩⟩] }

theorem shadowedTree_parentOlder : ∀ scope, shadowedTree.ParentOlder scope
  | ⟨0⟩ => nofun
  | ⟨1⟩ => by simp [State.ParentOlder, State.scope, shadowedTree]
  | ⟨2⟩ => by simp [State.ParentOlder, State.scope, shadowedTree]
  | ⟨3⟩ => by simp [State.ParentOlder, State.scope, shadowedTree]
  | ⟨number + 4⟩ => by simp [State.ParentOlder, State.scope, shadowedTree]

end LazyStack
