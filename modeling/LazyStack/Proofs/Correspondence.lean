import LazyStack.Proofs.Alike
import LazyStack.Proofs.Entry

/-!
States that correspond. What is paired is there on both sides and alike, and leads only to what is paired,
so that names mean like things along paired scopes. This lasts while the states grow and change nothing of
what they had, and the pairing grows with what both sides make at the same time.
-/

namespace LazyStack

def State.HasScope (state : State) (scope : ScopeId) : Prop :=
  scope.index < state.scopes.size ∧
    ∀ parent, (state.scope scope).parent = some parent → parent.index < scope.index

def State.HasPromise (state : State) (id : PromiseId) : Prop :=
  id.index < state.promises.size

instance (state : State) (id : PromiseId) : Decidable (state.HasPromise id) :=
  inferInstanceAs (Decidable (id.index < state.promises.size))

structure State.Alike (shared : Shared) (pairing : Pairing) (left right : State) : Prop where
  scopes {scope other : ScopeId} : pairing.scopes scope other →
    left.HasScope scope ∧ right.HasScope other ∧
      (left.scope scope).Alike shared pairing (right.scope other)
  promises {id other : PromiseId} : pairing.promises id other →
    left.HasPromise id ∧ right.HasPromise other ∧
      (left.promise id).Alike shared pairing (right.promise other)
  domains {domain : DomainId} : shared.domains domain →
    left.domain domain = right.domain domain ∧ shared.nulls (left.domain domain).null.identity
  nulls {identity : Nat} : shared.nulls identity →
    identity < left.nextIdentity ∧ identity < right.nextIdentity
  callLimit : left.callLimit = shared.limit ∧ right.callLimit = shared.limit

/-- What there is in one state is the same in another, in which there may be more. -/
structure State.ExtendsTo (before after : State) : Prop where
  scopes : before.scopes.size ≤ after.scopes.size
  scope {id : ScopeId} : id.index < before.scopes.size → after.scope id = before.scope id
  promises : before.promises.size ≤ after.promises.size
  promise {id : PromiseId} : before.HasPromise id → after.promise id = before.promise id
  domains : after.domains = before.domains
  callLimit : after.callLimit = before.callLimit
  nextIdentity : before.nextIdentity ≤ after.nextIdentity

namespace State

def opening (state : State) (opened : Scope) : State :=
  { state with
    scopes := state.scopes.push opened
    operandStacks := state.operandStacks.push [] }

def delaying (state : State) (promise : Promise) : State :=
  { state with promises := state.promises.push promise }

def marked (state : State) (log : Array Event) (nextIdentity : Nat) : State :=
  { state with log := log, nextIdentity := nextIdentity }

theorem hasStack_opening {state : State} (opened : Scope) {stack : StackId} (made : state.HasStack stack) :
    (state.opening opened).HasStack stack := by
  rw [HasStack] at made
  simp only [HasStack, opening, Array.size_push]
  omega

theorem hasStack_opening_new (state : State) (opened : Scope) :
    (state.opening opened).HasStack ⟨state.operandStacks.size⟩ := by
  simp [HasStack, opening]

theorem operands_opening_new (state : State) (opened : Scope) :
    (state.opening opened).operands ⟨state.operandStacks.size⟩ = [] := by
  simp [operands, opening]

theorem operands_opening {state : State} {opened : Scope} {stack : StackId} (made : state.HasStack stack) :
    (state.opening opened).operands stack = state.operands stack := by
  rw [operands, opening, Array.getElem?_push_lt made, operands, Array.getElem?_eq_getElem made]

theorem withArguments_eq (state : State) (scope : ScopeId) (parameters : List String) (frame : Frame) :
    state.withArguments scope parameters frame =
      (state.setOperands frame.stack ((state.operands frame.stack).drop parameters.length)).opening
        (.ofArguments (some scope) parameters
          ((state.operands frame.stack).take parameters.length).reverse) := by
  rw [withArguments, bindAll_eq]
  have scopes := @scopes_bindAll ((state.setOperands frame.stack
    ((state.operands frame.stack).drop parameters.length)).withFrame (some scope)) state.scopes [] (some scope)
    rfl parameters ((state.operands frame.stack).take parameters.length).reverse
  rw [scopes]
  rfl

theorem promise_resolve_self {state : State} {id : PromiseId} (made : state.HasPromise id) (value : Value) :
    (state.resolve id value).promise id = .resolved value := by
  rw [promise_resolve, if_pos ⟨rfl, made⟩]

theorem promise_resolve_of_ne (state : State) {id other : PromiseId} (distinct : id ≠ other)
    (value : Value) : (state.resolve id value).promise other = state.promise other :=
  (state.promise_resolve_cases id other value).resolve_left fun both => distinct both.1

namespace ExtendsTo

variable {before after : State}

theorem refl (state : State) : state.ExtendsTo state :=
  ⟨Nat.le_refl _, fun _ => rfl, Nat.le_refl _, fun _ => rfl, rfl, rfl, Nat.le_refl _⟩

theorem trans {first middle last : State} (earlier : first.ExtendsTo middle) (later : middle.ExtendsTo last) :
    first.ExtendsTo last where
  scopes := Nat.le_trans earlier.scopes later.scopes
  scope present := by rw [later.scope (Nat.lt_of_lt_of_le present earlier.scopes), earlier.scope present]
  promises := Nat.le_trans earlier.promises later.promises
  promise present := by
    rw [later.promise (Nat.lt_of_lt_of_le present earlier.promises), earlier.promise present]
  domains := later.domains.trans earlier.domains
  callLimit := later.callLimit.trans earlier.callLimit
  nextIdentity := Nat.le_trans earlier.nextIdentity later.nextIdentity

theorem setOperands (state : State) (stack : StackId) (values : Operands) :
    state.ExtendsTo (state.setOperands stack values) :=
  { refl state with }

theorem marked (state : State) (log : Array Event) {nextIdentity : Nat}
    (more : state.nextIdentity ≤ nextIdentity) : state.ExtendsTo (state.marked log nextIdentity) :=
  { refl state with nextIdentity := more }

theorem opening (state : State) (opened : Scope) : state.ExtendsTo (state.opening opened) :=
  { refl state with
    scopes := by simp [State.opening]
    scope := fun present => State.scope_push_of_lt opened present }

theorem delaying (state : State) (promise : Promise) : state.ExtendsTo (state.delaying promise) :=
  { refl state with
    promises := by simp [State.delaying]
    promise := fun present => by
      rw [State.delaying, promise_push, if_neg (Nat.ne_of_lt present)] }

theorem hasScope (grown : before.ExtendsTo after) {scope : ScopeId} (present : before.HasScope scope) :
    after.HasScope scope := by
  refine ⟨Nat.lt_of_lt_of_le present.1 grown.scopes, ?_⟩
  rw [grown.scope present.1]
  exact present.2

theorem hasPromise (grown : before.ExtendsTo after) {id : PromiseId} (present : before.HasPromise id) :
    after.HasPromise id :=
  Nat.lt_of_lt_of_le present grown.promises

end ExtendsTo

namespace Alike

variable {shared : Shared} {pairing first second : Pairing} {left middle right : State}

theorem extend (alike : left.Alike shared pairing right) {later further : State}
    (leftOn : left.ExtendsTo later) (rightOn : right.ExtendsTo further) :
    later.Alike shared pairing further where
  scopes paired := by
    obtain ⟨present, there, same⟩ := alike.scopes paired
    rw [leftOn.scope present.1, rightOn.scope there.1]
    exact ⟨leftOn.hasScope present, rightOn.hasScope there, same⟩
  promises paired := by
    obtain ⟨present, there, same⟩ := alike.promises paired
    rw [leftOn.promise present, rightOn.promise there]
    exact ⟨leftOn.hasPromise present, rightOn.hasPromise there, same⟩
  domains known := by
    rw [State.domain, leftOn.domains, State.domain, rightOn.domains]
    exact alike.domains known
  nulls meant := by
    obtain ⟨older, old⟩ := alike.nulls meant
    exact ⟨Nat.lt_of_lt_of_le older leftOn.nextIdentity, Nat.lt_of_lt_of_le old rightOn.nextIdentity⟩
  callLimit := by
    rw [leftOn.callLimit, rightOn.callLimit]
    exact alike.callLimit

theorem converse (alike : left.Alike shared pairing right) : right.Alike shared pairing.converse left where
  scopes paired := by
    obtain ⟨present, there, same⟩ := alike.scopes paired
    exact ⟨there, present, same.converse⟩
  promises paired := by
    obtain ⟨present, there, same⟩ := alike.promises paired
    exact ⟨there, present, same.converse⟩
  domains known := by
    obtain ⟨same, meant⟩ := alike.domains known
    exact ⟨same.symm, same ▸ meant⟩
  nulls meant := (alike.nulls meant).symm
  callLimit := alike.callLimit.symm

theorem comp (alike : left.Alike shared first middle) (further : middle.Alike shared second right) :
    left.Alike shared (first.comp second) right where
  scopes paired := by
    obtain ⟨between, one, two⟩ := paired
    obtain ⟨present, _, same⟩ := alike.scopes one
    obtain ⟨_, there, like⟩ := further.scopes two
    exact ⟨present, there, same.comp like⟩
  promises paired := by
    obtain ⟨between, one, two⟩ := paired
    obtain ⟨present, _, same⟩ := alike.promises one
    obtain ⟨_, there, like⟩ := further.promises two
    exact ⟨present, there, same.comp like⟩
  domains known := by
    obtain ⟨same, meant⟩ := alike.domains known
    exact ⟨same.trans (further.domains known).1, meant⟩
  nulls meant := ⟨(alike.nulls meant).1, (further.nulls meant).2⟩
  callLimit := ⟨alike.callLimit.1, further.callLimit.2⟩

theorem union (alike : left.Alike shared first right) (other : left.Alike shared second right) :
    left.Alike shared (first.union second) right where
  scopes paired := by
    rcases paired with one | two
    · obtain ⟨present, there, same⟩ := alike.scopes one
      exact ⟨present, there, same.mono (first.within_union_left second)⟩
    · obtain ⟨present, there, same⟩ := other.scopes two
      exact ⟨present, there, same.mono (first.within_union_right second)⟩
  promises paired := by
    rcases paired with one | two
    · obtain ⟨present, there, same⟩ := alike.promises one
      exact ⟨present, there, same.mono (first.within_union_left second)⟩
    · obtain ⟨present, there, same⟩ := other.promises two
      exact ⟨present, there, same.mono (first.within_union_right second)⟩
  domains := alike.domains
  nulls := alike.nulls
  callLimit := alike.callLimit

theorem parent (alike : left.Alike shared pairing right) {scope other : ScopeId}
    (paired : pairing.scopes scope other) :
    (left.scope scope).parent = none ∧ (right.scope other).parent = none ∨
      ∃ parent around, (left.scope scope).parent = some parent ∧ (right.scope other).parent = some around ∧
        pairing.scopes parent around ∧ parent.index < scope.index ∧ around.index < other.index := by
  obtain ⟨present, there, same⟩ := alike.scopes paired
  have related := same.parent
  cases inside : (left.scope scope).parent with
  | none =>
      cases within : (right.scope other).parent with
      | none => exact .inl ⟨rfl, rfl⟩
      | some around =>
          rw [inside, within] at related
          cases related
  | some parent =>
      cases within : (right.scope other).parent with
      | none =>
          rw [inside, within] at related
          cases related
      | some around =>
          rw [inside, within] at related
          cases related with
          | some linked =>
              exact .inr ⟨parent, around, rfl, rfl, linked, present.2 parent inside, there.2 around within⟩

-- A scope is younger than the one around it, so on each side its number is links enough.
theorem found (alike : left.Alike shared pairing right) {name : String} (known : shared.names name)
    {links more : Nat} {scope other : ScopeId} (paired : pairing.scopes scope other)
    (enough : scope.index ≤ links) (plenty : other.index ≤ more) :
    Option.Rel (Binding.Alike shared pairing)
      (((left.chainUpTo links scope).find? (left.binds name)).bind fun owner =>
        (left.scope owner).bindings.get? name)
      (((right.chainUpTo more other).find? (right.binds name)).bind fun owner =>
        (right.scope owner).bindings.get? name) := by
  induction links generalizing scope other more with
  | zero =>
      rcases alike.parent paired with ⟨inside, within⟩ | ⟨_, _, _, _, _, older, _⟩
      · rw [chainUpTo_outermost within, chainUpTo, found_of_cons, found_of_cons]
        exact rel_or ((alike.scopes paired).2.2.bindings known) .none
      · omega
  | succ links ih =>
      rcases alike.parent paired with ⟨inside, within⟩ | ⟨_, _, inside, within, linked, older, old⟩
      · rw [chainUpTo_outermost within, chainUpTo_outermost inside, found_of_cons, found_of_cons]
        exact rel_or ((alike.scopes paired).2.2.bindings known) .none
      · cases more with
        | zero => omega
        | succ more =>
            rw [chainUpTo, chainUpTo, inside, within, found_of_cons, found_of_cons]
            exact rel_or ((alike.scopes paired).2.2.bindings known) (ih linked (by omega) (Nat.lt_succ_iff.mp
              (Nat.lt_of_lt_of_le old plenty)))

theorem lookup? (alike : left.Alike shared pairing right) {name : String} (known : shared.names name)
    {scope other : ScopeId} (paired : pairing.scopes scope other) :
    Option.Rel (Binding.Alike shared pairing) (left.lookup? scope name) (right.lookup? other name) :=
  alike.found known paired (Nat.le_refl _) (Nat.le_refl _)

theorem parents_present (alike : left.Alike shared pairing right) {opened other : Scope}
    (same : opened.Alike shared pairing other) :
    (∀ parent, opened.parent = some parent → parent.index < left.scopes.size) ∧
      ∀ parent, other.parent = some parent → parent.index < right.scopes.size := by
  have related := same.parent
  generalize opened.parent = inside at related ⊢
  generalize other.parent = within at related ⊢
  cases related with
  | none =>
      constructor
      · rintro _ ⟨⟩
      · rintro _ ⟨⟩
  | some linked =>
      obtain ⟨present, there, _⟩ := alike.scopes linked
      constructor
      · rintro _ ⟨⟩
        exact present.1
      · rintro _ ⟨⟩
        exact there.1

theorem openScope (alike : left.Alike shared pairing right) {opened other : Scope}
    (same : opened.Alike shared pairing other) :
    (left.opening opened).Alike shared (pairing.withScope ⟨left.scopes.size⟩ ⟨right.scopes.size⟩)
      (right.opening other) where
  scopes paired := by
    have within := pairing.within_withScope ⟨left.scopes.size⟩ ⟨right.scopes.size⟩
    rcases paired with old | ⟨rfl, rfl⟩
    · obtain ⟨present, there, like⟩ :=
        (alike.extend (.opening left opened) (.opening right other)).scopes old
      exact ⟨present, there, like.mono within⟩
    · have here : (left.opening opened).scope ⟨left.scopes.size⟩ = opened := by simp [State.scope, opening]
      have there : (right.opening other).scope ⟨right.scopes.size⟩ = other := by simp [State.scope, opening]
      rw [HasScope, HasScope, here, there]
      obtain ⟨older, old⟩ := alike.parents_present same
      exact ⟨⟨by simp [opening], older⟩, ⟨by simp [opening], old⟩, same.mono within⟩
  promises paired := by
    obtain ⟨present, there, like⟩ :=
      (alike.extend (.opening left opened) (.opening right other)).promises paired
    exact ⟨present, there, like.mono (pairing.within_withScope _ _)⟩
  domains := alike.domains
  nulls := alike.nulls
  callLimit := alike.callLimit

theorem delay (alike : left.Alike shared pairing right) {promise other : Promise}
    (same : promise.Alike shared pairing other) :
    (left.delaying promise).Alike shared (pairing.withPromise ⟨left.promises.size⟩ ⟨right.promises.size⟩)
      (right.delaying other) where
  scopes paired := by
    obtain ⟨present, there, like⟩ :=
      (alike.extend (.delaying left promise) (.delaying right other)).scopes paired
    exact ⟨present, there, like.mono (pairing.within_withPromise _ _)⟩
  promises paired := by
    have within := pairing.within_withPromise ⟨left.promises.size⟩ ⟨right.promises.size⟩
    rcases paired with old | ⟨rfl, rfl⟩
    · obtain ⟨present, there, like⟩ :=
        (alike.extend (.delaying left promise) (.delaying right other)).promises old
      exact ⟨present, there, like.mono within⟩
    · rw [delaying, delaying, promise_push, promise_push, if_pos rfl, if_pos rfl]
      exact ⟨by simp [HasPromise], by simp [HasPromise], same.mono within⟩
  domains := alike.domains
  nulls := alike.nulls
  callLimit := alike.callLimit

end Alike

end State

theorem rel_put {shared : Shared} {pairing : Pairing} {bindings others : Table String Binding}
    (same : ∀ name, Option.Rel (Binding.Alike shared pairing) (bindings.get? name) (others.get? name))
    {value other : Value} (alike : value.Alike shared pairing other) (key name : String) :
    Option.Rel (Binding.Alike shared pairing) ((bindings.put key (.value value)).get? name)
      ((others.put key (.value other)).get? name) := by
  by_cases this : key = name
  · subst this
    rw [Table.get?_put_self, Table.get?_put_self]
    exact .some (.value alike)
  · rw [Table.get?_put_of_ne this, Table.get?_put_of_ne this]
    exact same name

theorem Scope.Alike.ofArguments {shared : Shared} {pairing : Pairing} {parent around : Option ScopeId}
    (linked : Option.Rel pairing.scopes parent around) {values others : List Value}
    (alike : List.Forall₂ (Value.Alike shared pairing) values others) (names : List String) :
    (Scope.ofArguments parent names values).Alike shared pairing (.ofArguments around names others) := by
  have bound {bindings further : Table String Binding}
      (same : ∀ name, Option.Rel (Binding.Alike shared pairing) (bindings.get? name) (further.get? name))
      (name : String) :
      Option.Rel (Binding.Alike shared pairing)
        (((names.zip values).foldl (fun bindings entry => bindings.put entry.1 (.value entry.2))
          bindings).get? name)
        (((names.zip others).foldl (fun bindings entry => bindings.put entry.1 (.value entry.2))
          further).get? name) := by
    induction names generalizing values others bindings further with
    | nil => exact same name
    | cons key names ih =>
        cases alike with
        | nil => exact same name
        | cons value rest => exact ih rest (rel_put same value key)
  exact ⟨linked, fun _ => bound (fun _ => .none) _⟩

/-- A pairing, and which operand stacks of one side stand for which of the other. -/
structure World extends Pairing where
  operandStacks : StackId → StackId → Prop

structure World.Within (narrow wide : World) : Prop where
  pairing : narrow.toPairing.Within wide.toPairing
  operandStacks {stack other : StackId} : narrow.operandStacks stack other → wide.operandStacks stack other

theorem World.Within.refl (world : World) : world.Within world :=
  ⟨.refl _, id⟩

theorem World.Within.trans {narrow middle wide : World} (inner : narrow.Within middle)
    (outer : middle.Within wide) : narrow.Within wide :=
  ⟨inner.pairing.trans outer.pairing, fun paired => outer.operandStacks (inner.operandStacks paired)⟩

structure State.SetsAside (before after : State) (used : StackId → Prop) : Prop where
  size : before.operandStacks.size ≤ after.operandStacks.size
  operands {stack : StackId} : before.HasStack stack →
    after.operands stack = before.operands stack ∧ ¬ used stack

namespace State.SetsAside

variable {before after : State} {used : StackId → Prop}

theorem refl (state : State) (idle : ∀ stack, ¬ used stack) : state.SetsAside state used :=
  ⟨Nat.le_refl _, fun _ => ⟨rfl, idle _⟩⟩

theorem setOperands (aside : before.SetsAside after used) {stack : StackId} (own : used stack)
    (values : Operands) : before.SetsAside (after.setOperands stack values) used where
  size := by simpa [State.setOperands] using aside.size
  operands {other} made := by
    obtain ⟨same, apart⟩ := aside.operands made
    have distinct : stack ≠ other := fun equal => apart (equal ▸ own)
    exact ⟨(operands_setOperands_of_ne after distinct values).trans same, apart⟩

theorem of_same (aside : before.SetsAside after used) {later : State}
    (same : later.operandStacks = after.operandStacks) : before.SetsAside later used where
  size := same ▸ aside.size
  operands made := by
    rw [State.operands, same]
    exact aside.operands made

theorem opening (aside : before.SetsAside after used) (opened : Scope) {more : StackId → Prop}
    (own : ∀ {stack}, more stack → used stack ∨ stack = ⟨after.operandStacks.size⟩) :
    before.SetsAside (after.opening opened) more where
  size := by simpa [State.opening] using Nat.le_succ_of_le aside.size
  operands made := by
    obtain ⟨same, apart⟩ := aside.operands made
    have still := Nat.lt_of_lt_of_le made aside.size
    refine ⟨by rw [operands_opening still, same], fun used => ?_⟩
    rcases own used with old | rfl
    · exact apart old
    · exact Nat.lt_irrefl _ still

end State.SetsAside

def World.opening (world : World) (left right : State) : World where
  toPairing := world.withScope ⟨left.scopes.size⟩ ⟨right.scopes.size⟩
  operandStacks stack other := world.operandStacks stack other ∨
    stack = ⟨left.operandStacks.size⟩ ∧ other = ⟨right.operandStacks.size⟩

def World.delaying (world : World) (left right : State) : World where
  toPairing := world.withPromise ⟨left.promises.size⟩ ⟨right.promises.size⟩
  operandStacks := world.operandStacks

theorem World.within_opening (world : World) (left right : State) : world.Within (world.opening left right) :=
  ⟨world.within_withScope _ _, .inl⟩

theorem World.within_delaying (world : World) (left right : State) :
    world.Within (world.delaying left right) :=
  ⟨world.within_withPromise _ _, id⟩

/-- Two states in the midst of runs are alike, where the promises of the left one are taken to be as they
once were, and operands on paired stacks are alike. -/
structure State.Coupled (shared : Shared) (world : World) (origins : Array Promise) (left right : State) :
    Prop where
  alike : ({ left with promises := origins } : State).Alike shared world.toPairing right
  sized : origins.size = left.promises.size
  operands {stack other : StackId} : world.operandStacks stack other →
    left.HasStack stack ∧ right.HasStack other ∧
      List.Forall₂ (Value.Alike shared world.toPairing) (left.operands stack) (right.operands other)
  unique {stack other one two : StackId} : world.operandStacks stack other → world.operandStacks one two →
    (stack = one ↔ other = two)

namespace State.Coupled

variable {shared : Shared} {world : World} {origins : Array Promise} {left right : State}

theorem of_alike {pairing : Pairing} (alike : left.Alike shared pairing right) :
    left.Coupled shared ⟨pairing, fun _ _ => False⟩ left.promises right where
  alike := alike
  sized := rfl
  operands paired := paired.elim
  unique paired := paired.elim

theorem promises (coupled : left.Coupled shared world origins right) {id other : PromiseId}
    (paired : world.promises id other) : left.HasPromise id ∧ right.HasPromise other := by
  obtain ⟨present, there, _⟩ := coupled.alike.promises paired
  exact ⟨Nat.lt_of_lt_of_eq present coupled.sized, there⟩

theorem operate (coupled : left.Coupled shared world origins right) {stack other : StackId}
    (paired : world.operandStacks stack other) {values others : Operands}
    (same : List.Forall₂ (Value.Alike shared world.toPairing) values others) :
    (left.setOperands stack values).Coupled shared world origins (right.setOperands other others) where
  alike := coupled.alike.extend (.setOperands _ stack values) (.setOperands right other others)
  sized := coupled.sized
  operands {one two} also := by
    obtain ⟨made, there, like⟩ := coupled.operands also
    refine ⟨hasStack_setOperands.mpr made, hasStack_setOperands.mpr there, ?_⟩
    by_cases this : stack = one
    · have that := (coupled.unique paired also).mp this
      subst this
      subst that
      rw [operands_setOperands_self made, operands_setOperands_self there]
      exact same
    · have apart : ¬ other = two := fun equal => this ((coupled.unique paired also).mpr equal)
      rw [operands_setOperands_of_ne _ this, operands_setOperands_of_ne _ apart]
      exact like
  unique := coupled.unique

theorem mark (coupled : left.Coupled shared world origins right) (log events : Array Event)
    {number count : Nat} (more : left.nextIdentity ≤ number) (further : right.nextIdentity ≤ count) :
    (left.marked log number).Coupled shared world origins (right.marked events count) where
  alike := coupled.alike.extend (@ExtendsTo.marked { left with promises := origins } log _ more)
    (.marked right events further)
  sized := coupled.sized
  operands := coupled.operands
  unique := coupled.unique

theorem openFrame (coupled : left.Coupled shared world origins right) {opened other : Scope}
    (same : opened.Alike shared world.toPairing other) :
    (left.opening opened).Coupled shared (world.opening left right) origins (right.opening other) where
  alike := coupled.alike.openScope same
  sized := coupled.sized
  operands {one two} paired := by
    rcases paired with old | ⟨rfl, rfl⟩
    · obtain ⟨made, there, like⟩ := coupled.operands old
      rw [operands_opening made, operands_opening there]
      exact ⟨hasStack_opening opened made, hasStack_opening other there,
        like.imp fun _ _ value => value.mono (world.within_opening left right).pairing⟩
    · rw [operands_opening_new, operands_opening_new]
      exact ⟨hasStack_opening_new left opened, hasStack_opening_new right other, .nil⟩
  unique one two := by
    rcases one with old | ⟨rfl, rfl⟩
    · obtain ⟨made, there, _⟩ := coupled.operands old
      rcases two with also | ⟨rfl, rfl⟩
      · exact coupled.unique old also
      · constructor
        · rintro rfl
          exact absurd made (Nat.lt_irrefl _)
        · rintro rfl
          exact absurd there (Nat.lt_irrefl _)
    · rcases two with also | ⟨rfl, rfl⟩
      · obtain ⟨made, there, _⟩ := coupled.operands also
        constructor
        · rintro rfl
          exact absurd made (Nat.lt_irrefl _)
        · rintro rfl
          exact absurd there (Nat.lt_irrefl _)
      · exact Iff.intro (fun _ => rfl) fun _ => rfl

theorem delay (coupled : left.Coupled shared world origins right) {scope other : ScopeId}
    (paired : world.scopes scope other) {body : List Step}
    (code : CodeShared shared world.toPairing body) :
    (left.delaying (.pending scope body)).Coupled shared (world.delaying left right)
      (origins.push (.pending scope body)) (right.delaying (.pending other body)) where
  alike := by
    have same : (Promise.pending scope body).Alike shared world.toPairing (.pending other body) :=
      ⟨.some paired, rfl, code, .none⟩
    have alike := coupled.alike.delay same
    dsimp only at alike
    rw [coupled.sized] at alike
    exact alike
  sized := by simp [delaying, coupled.sized]
  operands also := by
    obtain ⟨made, there, like⟩ := coupled.operands also
    exact ⟨made, there, like.imp fun _ _ value => value.mono (world.within_delaying left right).pairing⟩
  unique := coupled.unique

end State.Coupled

end LazyStack
