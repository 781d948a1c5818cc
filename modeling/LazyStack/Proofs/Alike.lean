import Mathlib.Data.List.Forall2
import LazyStack.Proofs.Run

/-!
Values that are alike, along a pairing of the scopes and promises of one side with those of another. They
have the same tags, data and code, refer to paired scopes and promises, and agree on being the null of a
domain. Scopes that are alike bind to like things the names that code looks up, and any others as they may.
-/

namespace LazyStack

/-- What two sides have in common: the names that code looks up, domains, the identities of the nulls of
these domains, host callables, and the limit on depth. -/
structure Shared where
  names : String → Prop
  domains : DomainId → Prop
  nulls : Nat → Prop
  hosts : HostId → HostHeader → Prop
  limit : Nat

/-- Which scopes and promises of one side stand for which of the other. -/
structure Pairing where
  scopes : ScopeId → ScopeId → Prop
  promises : PromiseId → PromiseId → Prop

namespace Pairing

structure Within (narrow wide : Pairing) : Prop where
  scopes {scope other : ScopeId} : narrow.scopes scope other → wide.scopes scope other
  promises {id other : PromiseId} : narrow.promises id other → wide.promises id other

theorem Within.refl (pairing : Pairing) : pairing.Within pairing :=
  ⟨id, id⟩

theorem Within.trans {narrow middle wide : Pairing} (inner : narrow.Within middle)
    (outer : middle.Within wide) : narrow.Within wide :=
  ⟨fun paired => outer.scopes (inner.scopes paired), fun paired => outer.promises (inner.promises paired)⟩

def diagonal (scopes : ScopeId → Prop) (promises : PromiseId → Prop) : Pairing :=
  ⟨fun scope other => scope = other ∧ scopes scope, fun id other => id = other ∧ promises id⟩

def converse (pairing : Pairing) : Pairing :=
  ⟨fun scope other => pairing.scopes other scope, fun id other => pairing.promises other id⟩

def comp (first second : Pairing) : Pairing :=
  ⟨fun scope other => ∃ middle, first.scopes scope middle ∧ second.scopes middle other,
    fun id other => ∃ middle, first.promises id middle ∧ second.promises middle other⟩

def union (first second : Pairing) : Pairing :=
  ⟨fun scope other => first.scopes scope other ∨ second.scopes scope other,
    fun id other => first.promises id other ∨ second.promises id other⟩

theorem within_union_left (first second : Pairing) : first.Within (first.union second) :=
  ⟨.inl, .inl⟩

theorem within_union_right (first second : Pairing) : second.Within (first.union second) :=
  ⟨.inr, .inr⟩

def withScope (pairing : Pairing) (scope other : ScopeId) : Pairing :=
  ⟨fun one two => pairing.scopes one two ∨ one = scope ∧ two = other, pairing.promises⟩

def withPromise (pairing : Pairing) (id other : PromiseId) : Pairing :=
  ⟨pairing.scopes, fun one two => pairing.promises one two ∨ one = id ∧ two = other⟩

theorem within_withScope (pairing : Pairing) (scope other : ScopeId) :
    pairing.Within (pairing.withScope scope other) :=
  ⟨.inl, id⟩

theorem within_withPromise (pairing : Pairing) (promise other : PromiseId) :
    pairing.Within (pairing.withPromise promise other) :=
  ⟨id, .inl⟩

end Pairing

def Payload.atomic : Payload → Bool
  | .cell _ _ | .code _ | .callable _ => false
  | _ => true

section Alike

variable (shared : Shared) (pairing : Pairing)

-- Code is part of values and of closures, and its constants are values again, so the four come together.
mutual

inductive Value.Alike : Value → Value → Prop
  | made {domain tag payload other identity number} :
      shared.domains domain → Payload.Alike payload other →
      (∀ null, shared.nulls null → (identity = null ↔ number = null)) →
      Value.Alike ⟨domain, tag, payload, identity⟩ ⟨domain, tag, other, number⟩

inductive Payload.Alike : Payload → Payload → Prop
  | atom {payload : Payload} : payload.atomic → Payload.Alike payload payload
  | cell {head tail first rest} :
      Value.Alike head first → Value.Alike tail rest → Payload.Alike (.cell head tail) (.cell first rest)
  | code {steps} : CodeShared steps → Payload.Alike (.code steps) (.code steps)
  | callable {target other} :
      Callable.Alike target other → Payload.Alike (.callable target) (.callable other)

inductive Callable.Alike : Callable → Callable → Prop
  | closure {scope other body parameters} :
      pairing.scopes scope other → CodeShared body →
      Callable.Alike (.closure scope body parameters) (.closure other body parameters)
  | promise {id other} : pairing.promises id other → Callable.Alike (.promise id) (.promise other)
  | makeClosure {domain} :
      shared.domains domain → Callable.Alike (.makeClosure domain) (.makeClosure domain)
  | delay : Callable.Alike .delay .delay
  | force : Callable.Alike .force .force
  | isPromise : Callable.Alike .isPromise .isPromise
  | host {id header} : shared.hosts id header → Callable.Alike (.host id header) (.host id header)

/-- Code looks up only shared names, and its constants stand for themselves. -/
inductive CodeShared : List Step → Prop
  | nil : CodeShared []
  | push {value rest} : Value.Alike value value → CodeShared rest → CodeShared (.push value :: rest)
  | get {name rest} : shared.names name → CodeShared rest → CodeShared (.get name :: rest)
  | call {name args returns rest} :
      shared.names name → CodeShared rest → CodeShared (.call name args returns :: rest)
  | note {text rest} : CodeShared rest → CodeShared (.note text :: rest)

end

inductive Binding.Alike : Binding → Binding → Prop
  | value {bound other} : bound.Alike shared pairing other → Binding.Alike (.value bound) (.value other)
  | callable {target other} :
      target.Alike shared pairing other → Binding.Alike (.callable target) (.callable other)

structure Scope.Alike (scope other : Scope) : Prop where
  parent : Option.Rel pairing.scopes scope.parent other.parent
  bindings {name : String} : shared.names name →
    Option.Rel (Binding.Alike shared pairing) (scope.bindings.get? name) (other.bindings.get? name)

structure Promise.Alike (promise other : Promise) : Prop where
  scope : Option.Rel pairing.scopes promise.scope other.scope
  body : promise.body = other.body
  code : CodeShared shared pairing (promise.body.getD [])
  value : Option.Rel (Value.Alike shared pairing) promise.value other.value

end Alike

variable {shared : Shared} {pairing wider first second : Pairing}

mutual

theorem Value.Alike.mono (within : pairing.Within wider) {value other : Value} :
    value.Alike shared pairing other → value.Alike shared wider other
  | .made known same nulls => .made known (same.mono within) nulls

theorem Payload.Alike.mono (within : pairing.Within wider) {payload other : Payload} :
    payload.Alike shared pairing other → payload.Alike shared wider other
  | .atom atomic => .atom atomic
  | .cell head tail => .cell (head.mono within) (tail.mono within)
  | .code body => .code (body.mono within)
  | .callable target => .callable (target.mono within)

theorem Callable.Alike.mono (within : pairing.Within wider) {target other : Callable} :
    target.Alike shared pairing other → target.Alike shared wider other
  | .closure scope body => .closure (within.scopes scope) (body.mono within)
  | .promise id => .promise (within.promises id)
  | .makeClosure known => .makeClosure known
  | .delay => .delay
  | .force => .force
  | .isPromise => .isPromise
  | .host known => .host known

theorem CodeShared.mono (within : pairing.Within wider) {code : List Step} :
    CodeShared shared pairing code → CodeShared shared wider code
  | .nil => .nil
  | .push value rest => .push (value.mono within) (rest.mono within)
  | .get known rest => .get known (rest.mono within)
  | .call known rest => .call known (rest.mono within)
  | .note rest => .note (rest.mono within)

end

mutual

theorem Value.Alike.converse {value other : Value} :
    value.Alike shared pairing other → other.Alike shared pairing.converse value
  | .made known same nulls => .made known same.converse fun null meant => (nulls null meant).symm

theorem Payload.Alike.converse {payload other : Payload} :
    payload.Alike shared pairing other → other.Alike shared pairing.converse payload
  | .atom atomic => .atom atomic
  | .cell head tail => .cell head.converse tail.converse
  | .code body => .code body.converse
  | .callable target => .callable target.converse

theorem Callable.Alike.converse {target other : Callable} :
    target.Alike shared pairing other → other.Alike shared pairing.converse target
  | .closure scope body => .closure scope body.converse
  | .promise id => .promise id
  | .makeClosure known => .makeClosure known
  | .delay => .delay
  | .force => .force
  | .isPromise => .isPromise
  | .host known => .host known

theorem CodeShared.converse {code : List Step} :
    CodeShared shared pairing code → CodeShared shared pairing.converse code
  | .nil => .nil
  | .push value rest => .push value.converse rest.converse
  | .get known rest => .get known rest.converse
  | .call known rest => .call known rest.converse
  | .note rest => .note rest.converse

end

mutual

theorem Value.Alike.comp {value middle other : Value} :
    value.Alike shared first middle → middle.Alike shared second other →
      value.Alike shared (first.comp second) other
  | .made known same nulls, .made _ further others =>
      .made known (same.comp further) fun null meant => (nulls null meant).trans (others null meant)

theorem Payload.Alike.comp {payload middle other : Payload} :
    payload.Alike shared first middle → middle.Alike shared second other →
      payload.Alike shared (first.comp second) other
  | .atom atomic, .atom _ => .atom atomic
  | .cell head tail, .cell other rest => .cell (head.comp other) (tail.comp rest)
  | .code body, .code other => .code (body.comp other)
  | .callable target, .callable other => .callable (target.comp other)

theorem Callable.Alike.comp {target middle other : Callable} :
    target.Alike shared first middle → middle.Alike shared second other →
      target.Alike shared (first.comp second) other
  | .closure scope body, .closure further other => .closure ⟨_, scope, further⟩ (body.comp other)
  | .promise id, .promise further => .promise ⟨_, id, further⟩
  | .makeClosure known, .makeClosure _ => .makeClosure known
  | .delay, .delay => .delay
  | .force, .force => .force
  | .isPromise, .isPromise => .isPromise
  | .host known, .host _ => .host known

theorem CodeShared.comp {code : List Step} :
    CodeShared shared first code → CodeShared shared second code →
      CodeShared shared (first.comp second) code
  | .nil, .nil => .nil
  | .push value rest, .push other further => .push (value.comp other) (rest.comp further)
  | .get known rest, .get _ further => .get known (rest.comp further)
  | .call known rest, .call _ further => .call known (rest.comp further)
  | .note rest, .note further => .note (rest.comp further)

end

theorem CodeShared.single {step : Step} {rest : List Step} (code : CodeShared shared pairing (step :: rest)) :
    CodeShared shared pairing [step] ∧ CodeShared shared pairing rest := by
  cases code with
  | push value rest => exact ⟨.push value .nil, rest⟩
  | get known rest => exact ⟨.get known .nil, rest⟩
  | call known rest => exact ⟨.call known .nil, rest⟩
  | note rest => exact ⟨.note .nil, rest⟩

namespace Callable.Alike

variable {target other : Callable} (alike : target.Alike shared pairing other)
include alike

theorem kind : target.kind = other.kind := by
  cases alike <;> rfl

theorem signature? : target.signature? = other.signature? := by
  cases alike <;> rfl

theorem classes : target.classes = other.classes := by
  cases alike <;> rfl

end Callable.Alike

namespace Payload.Alike

variable {payload other : Payload} (alike : payload.Alike shared pairing other)
include alike

theorem isInstance (tag : Tag) : payload.isInstance tag = other.isInstance tag := by
  have classes : payload.classes = other.classes := by
    cases alike with
    | callable target => exact target.classes
    | _ => rfl
  rw [Payload.isInstance, Payload.isInstance, classes]

theorem fits (tag : Tag) : payload.fits tag = other.fits tag := by
  have instances := alike.isInstance tag
  cases alike with
  | callable target => exact instances
  | _ => rfl

theorem steps : payload.steps = other.steps ∧ CodeShared shared pairing payload.steps := by
  cases alike with
  | @atom payload atomic =>
      cases payload with
      | cell | code | callable => cases atomic
      | _ => exact ⟨rfl, .nil⟩
  | code body => exact ⟨rfl, body⟩
  | _ => exact ⟨rfl, .nil⟩

theorem symbolName : payload.symbolName = other.symbolName := by
  cases alike <;> rfl

theorem eq_of_atomic (atomic : other.atomic) : payload = other := by
  cases alike with
  | atom => rfl
  | _ => cases atomic

theorem of_callable {target : Callable} (holds : payload = .callable target) :
    ∃ like, other = .callable like ∧ target.Alike shared pairing like := by
  cases alike with
  | atom atomic =>
      rw [holds] at atomic
      cases atomic
  | callable same =>
      cases holds
      exact ⟨_, rfl, same⟩
  | _ => cases holds

end Payload.Alike

namespace Value.Alike

variable {value other : Value}

theorem domain (alike : value.Alike shared pairing other) : value.domain = other.domain := by
  cases alike
  rfl

theorem known (alike : value.Alike shared pairing other) : shared.domains value.domain := by
  cases alike
  assumption

theorem tag (alike : value.Alike shared pairing other) : value.tag = other.tag := by
  cases alike
  rfl

theorem payload (alike : value.Alike shared pairing other) :
    value.payload.Alike shared pairing other.payload := by
  cases alike
  assumption

theorem same (alike : value.Alike shared pairing other) {null : Value} (meant : shared.nulls null.identity) :
    value.same null = other.same null := by
  cases alike with
  | made known same nulls =>
      rw [Value.same, Value.same, Bool.eq_iff_iff, beq_iff_eq, beq_iff_eq]
      exact nulls _ meant

theorem isPromise (alike : value.Alike shared pairing other) : value.isPromise = other.isPromise := by
  cases alike with
  | @made _ tag datum _ _ _ _ same _ =>
      cases same with
      | atom atomic =>
          cases datum with
          | callable => cases atomic
          | _ => cases tag <;> rfl
      | callable target => cases target <;> cases tag <;> rfl
      | _ => cases tag <;> rfl

theorem chain (alike : value.Alike shared pairing other) :
    List.Forall₂ (Value.Alike shared pairing) value.elements other.elements ∧
      value.terminator.Alike shared pairing other.terminator := by
  induction value using Value.terminator.induct generalizing other with
  | case1 domain head tail identity ih =>
      cases alike with
      | made known same nulls =>
          cases same with
          | atom atomic => cases atomic
          | cell headAlike tailAlike =>
              obtain ⟨rest, last⟩ := ih tailAlike
              exact ⟨.cons headAlike rest, last⟩
  | case2 value ended =>
      have whole := id alike
      cases alike with
      | @made _ tag datum _ _ _ _ same _ =>
          cases same with
          | atom atomic =>
              cases datum with
              | cell | code | callable => cases atomic
              | _ => cases tag <;> exact ⟨.nil, whole⟩
          | cell => cases tag with
            | cell => exact (ended _ _ _ _ rfl).elim
            | _ => exact ⟨.nil, whole⟩
          | _ => cases tag <;> exact ⟨.nil, whole⟩

end Value.Alike

theorem rel_imp {α β : Type} {narrow wide : α → β → Prop} (imp : ∀ {one two}, narrow one two → wide one two)
    {first : Option α} {second : Option β} : Option.Rel narrow first second → Option.Rel wide first second
  | .some related => .some (imp related)
  | .none => .none

theorem rel_flip {α β : Type} {related : α → β → Prop} {first : Option α} {second : Option β} :
    Option.Rel related first second → Option.Rel (fun one two => related two one) second first
  | .some known => .some known
  | .none => .none

theorem rel_comp {α β γ : Type} {near : α → β → Prop} {far : β → γ → Prop} {joint : α → γ → Prop}
    (join : ∀ {one two three}, near one two → far two three → joint one three) {first : Option α}
    {second : Option β} {third : Option γ} :
    Option.Rel near first second → Option.Rel far second third → Option.Rel joint first third
  | .some one, .some two => .some (join one two)
  | .none, .none => .none

theorem rel_or {α β : Type} {related : α → β → Prop} {first rest : Option α} {second further : Option β}
    (here : Option.Rel related first second) (beyond : Option.Rel related rest further) :
    Option.Rel related (first.or rest) (second.or further) := by
  cases here with
  | some known => exact .some known
  | none => exact beyond

namespace Binding.Alike

theorem mono (within : pairing.Within wider) {binding other : Binding} :
    binding.Alike shared pairing other → binding.Alike shared wider other
  | .value bound => .value (bound.mono within)
  | .callable target => .callable (target.mono within)

theorem converse {binding other : Binding} :
    binding.Alike shared pairing other → other.Alike shared pairing.converse binding
  | .value bound => .value bound.converse
  | .callable target => .callable target.converse

theorem comp {binding middle other : Binding} :
    binding.Alike shared first middle → middle.Alike shared second other →
      binding.Alike shared (first.comp second) other
  | .value bound, .value further => .value (bound.comp further)
  | .callable target, .callable further => .callable (target.comp further)

end Binding.Alike

namespace Scope.Alike

variable {scope middle other : Scope}

theorem mono (within : pairing.Within wider) (alike : scope.Alike shared pairing other) :
    scope.Alike shared wider other where
  parent := rel_imp within.scopes alike.parent
  bindings known := rel_imp (fun bound => bound.mono within) (alike.bindings known)

theorem converse (alike : scope.Alike shared pairing other) :
    other.Alike shared pairing.converse scope where
  parent := rel_flip alike.parent
  bindings known := rel_imp (fun bound => bound.converse) (rel_flip (alike.bindings known))

theorem comp (alike : scope.Alike shared first middle) (further : middle.Alike shared second other) :
    scope.Alike shared (first.comp second) other where
  parent := rel_comp (fun one two => ⟨_, one, two⟩) alike.parent further.parent
  bindings known :=
    rel_comp (fun bound other => bound.comp other) (alike.bindings known) (further.bindings known)

end Scope.Alike

namespace Promise.Alike

variable {promise middle other : Promise}

theorem mono (within : pairing.Within wider) (alike : promise.Alike shared pairing other) :
    promise.Alike shared wider other where
  scope := rel_imp within.scopes alike.scope
  body := alike.body
  code := alike.code.mono within
  value := rel_imp (fun value => value.mono within) alike.value

theorem converse (alike : promise.Alike shared pairing other) :
    other.Alike shared pairing.converse promise where
  scope := rel_flip alike.scope
  body := alike.body.symm
  code := alike.body ▸ alike.code.converse
  value := rel_imp (fun value => value.converse) (rel_flip alike.value)

theorem comp (alike : promise.Alike shared first middle) (further : middle.Alike shared second other) :
    promise.Alike shared (first.comp second) other where
  scope := rel_comp (fun one two => ⟨_, one, two⟩) alike.scope further.scope
  body := alike.body.trans further.body
  code := alike.code.comp (alike.body ▸ further.code)
  value := rel_comp (fun value other => value.comp other) alike.value further.value

theorem settled (alike : promise.Alike shared pairing other) :
    (∃ value answer, promise.value = some value ∧ other.value = some answer ∧
      value.Alike shared pairing answer) ∨ promise.value = none ∧ other.value = none := by
  have values := alike.value
  generalize promise.value = value at values ⊢
  generalize other.value = answer at values ⊢
  cases values with
  | some same => exact .inl ⟨_, _, rfl, rfl, same⟩
  | none => exact .inr ⟨rfl, rfl⟩

end Promise.Alike

end LazyStack
