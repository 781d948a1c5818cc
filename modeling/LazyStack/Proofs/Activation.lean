import LazyStack.Proofs.Retention

/-!
Activations. A call of a closure opens a scope with the arguments of its parameters, inside of the scope
that the closure was made in, and a promise opens an empty one. Along scopes that are nested in this way a
name is found in the innermost activation that has it as a parameter, or else in the global scope.
-/

namespace LazyStack

/-- An activation of a lambda, with the arguments of its parameters, or of a delay, without any. -/
structure Level where
  scope : ScopeId
  parameters : List String
  arguments : List Value
  matched : arguments.length = parameters.length

namespace Level

def ofCall (scope : ScopeId) (parameters : List String) (operands : Operands)
    (enough : parameters.length ≤ operands.length) : Level :=
  ⟨scope, parameters, (operands.take parameters.length).reverse, by simp [enough]⟩

def ofDelay (scope : ScopeId) : Level :=
  ⟨scope, [], [], rfl⟩

def argument? (level : Level) (name : String) : Option Value :=
  Table.get? name (level.parameters.zip level.arguments)

end Level

def scopeOf (globals : ScopeId) : List Level → ScopeId
  | [] => globals
  | level :: _ => level.scope

namespace State

/-- What a name means inside of some activations, the innermost first. -/
def means? (state : State) (globals : ScopeId) : List Level → String → Option Binding
  | [], name => (state.scope globals).bindings.get? name
  | level :: outer, name =>
      if name ∈ level.parameters then (level.argument? name).map .value
      else state.means? globals outer name

/-- Some activations are open in a state, each inside of the next. -/
def Nests (state : State) (globals : ScopeId) : List Level → Prop
  | [] => globals.index < state.scopes.size ∧ (state.scope globals).parent = none
  | level :: outer =>
      (scopeOf globals outer).index < level.scope.index ∧ level.scope.index < state.scopes.size ∧
        state.scope level.scope =
          .ofArguments (some (scopeOf globals outer)) level.parameters level.arguments ∧
        state.Nests globals outer

end State

theorem get?_foldl_put {name : String} {entries : List (String × Value)} {bindings : Table String Binding}
    (distinct : (entries.map Prod.fst).Nodup) :
    (entries.foldl (fun bindings entry => bindings.put entry.1 (.value entry.2)) bindings).get? name =
      match Table.get? name entries with
      | some value => some (.value value)
      | none => bindings.get? name := by
  induction entries generalizing bindings with
  | nil => rfl
  | cons entry rest ih =>
      obtain ⟨key, value⟩ := entry
      rw [List.map_cons, List.nodup_cons] at distinct
      rw [List.foldl_cons, ih distinct.2, Table.get?]
      by_cases same : key = name
      · subst same
        rw [if_pos rfl, Table.get?_eq_none distinct.1, Table.get?_put_self]
      · rw [if_neg same, Table.get?_put_of_ne same]

namespace Level

theorem keys_zip (level : Level) :
    Table.keys (level.parameters.zip level.arguments) = level.parameters :=
  List.map_fst_zip (Nat.le_of_eq level.matched.symm)

theorem argument?_isSome_iff (level : Level) (name : String) :
    (level.argument? name).isSome ↔ name ∈ level.parameters := by
  rw [argument?, Table.get?_isSome_iff, level.keys_zip]

theorem get?_ofArguments (level : Level) (distinct : level.parameters.Nodup) (parent : Option ScopeId)
    (name : String) :
    (Scope.ofArguments parent level.parameters level.arguments).bindings.get? name =
      (level.argument? name).map .value := by
  have keys : (level.parameters.zip level.arguments).map Prod.fst = level.parameters := level.keys_zip
  rw [Scope.ofArguments, get?_foldl_put (keys.symm ▸ distinct), argument?]
  cases Table.get? name (level.parameters.zip level.arguments) <;> rfl

end Level

namespace State

variable {state : State} {globals : ScopeId}

theorem means?_of_not_mem {levels : List Level} {name : String}
    (absent : ∀ level ∈ levels, name ∉ level.parameters) :
    state.means? globals levels name = (state.scope globals).bindings.get? name := by
  induction levels with
  | nil => rfl
  | cons level outer ih =>
      rw [means?, if_neg (absent level (by simp))]
      exact ih fun other member => absent other (by simp [member])

theorem Nests.outermost {levels : List Level} (nests : state.Nests globals levels) :
    state.Nests globals [] := by
  induction levels with
  | nil => exact nests
  | cons level outer ih => exact ih nests.2.2.2

theorem Nests.present {levels : List Level} (nests : state.Nests globals levels) :
    (scopeOf globals levels).index < state.scopes.size := by
  cases levels with
  | nil => exact nests.1
  | cons level outer => exact nests.2.1

-- A scope is younger than the one around it, so its number is links enough for the whole chain.
theorem Nests.found {levels : List Level} (nests : state.Nests globals levels)
    (distinct : ∀ level ∈ levels, level.parameters.Nodup) (name : String) {links : Nat}
    (enough : (scopeOf globals levels).index ≤ links) :
    (((state.chainUpTo links (scopeOf globals levels)).find? (state.binds name)).bind fun owner =>
      (state.scope owner).bindings.get? name) = state.means? globals levels name := by
  induction levels generalizing links with
  | nil =>
      rw [scopeOf, chainUpTo_outermost nests.2, found_of_cons, means?]
      cases (state.scope globals).bindings.get? name <;> rfl
  | cons level outer ih =>
      obtain ⟨younger, _, same, around⟩ := nests
      rw [scopeOf] at enough
      cases links with
      | zero => omega
      | succ links =>
          have linked : state.chainUpTo (links + 1) level.scope =
              level.scope :: state.chainUpTo links (scopeOf globals outer) := by
            rw [chainUpTo, same]
            rfl
          rw [scopeOf, linked, found_of_cons, same,
            level.get?_ofArguments (distinct level (by simp)), means?,
            ih around (fun other member => distinct other (by simp [member])) (by omega)]
          by_cases parameter : name ∈ level.parameters
          · obtain ⟨value, given⟩ :=
              Option.isSome_iff_exists.mp ((level.argument?_isSome_iff name).mpr parameter)
            rw [given, if_pos parameter]
            rfl
          · have absent : level.argument? name = none := Option.not_isSome_iff_eq_none.mp
              (parameter ∘ (level.argument?_isSome_iff name).mp)
            rw [absent, if_neg parameter]
            rfl

theorem Nests.lookup {levels : List Level} (nests : state.Nests globals levels)
    (distinct : ∀ level ∈ levels, level.parameters.Nodup) (name : String) :
    state.lookup? (scopeOf globals levels) name = state.means? globals levels name :=
  nests.found distinct name (Nat.le_refl _)

theorem Retains.nests {before after : State} (retains : before.Retains after) {levels : List Level}
    (nests : before.Nests globals levels) : after.Nests globals levels := by
  induction levels with
  | nil => exact ⟨Nat.lt_of_lt_of_le nests.1 retains.scopes, (retains.parent nests.1).trans nests.2⟩
  | cons level outer ih =>
      obtain ⟨younger, present, same, around⟩ := nests
      refine ⟨younger, Nat.lt_of_lt_of_le present retains.scopes, ?_, ih around⟩
      rw [retains.locals present (by rw [same]; exact Option.some_ne_none _), same]

theorem Nests.enter {levels : List Level} {start : State} {inner : Frame} {level : Level}
    (nests : state.Nests globals levels) (same : level.scope = inner.scope)
    (opens : state.Opens (.ofArguments (some (scopeOf globals levels)) level.parameters level.arguments)
      inner start) : start.Nests globals (level :: levels) := by
  have index : level.scope.index = state.scopes.size := by rw [same, opens.scope]
  refine ⟨index ▸ nests.present, ?_, same ▸ opens.scope_new, (Retains.of_opens opens).nests nests⟩
  rw [index, opens.scopes, Array.size_push]
  exact Nat.lt_succ_self _

end State

end LazyStack
