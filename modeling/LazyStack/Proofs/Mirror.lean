import LazyStack.Proofs.Alike
import LazyStack.Proofs.Classes

/-!
Values that mirror each other. The things of one side stand for those of another: domains, the names that
these register, scopes, stacks, promises, hosts, and the identities of values. A value mirrors another if
they differ in nothing but the things that they are made of, each standing for the other. A value that
mirrors any other is of a kind that its tag says, in a domain that has a name for the tag.
-/

namespace LazyStack

/-- What a state keeps track of by number. An entry is a tag for which a domain has a name, and a memory
is that of a host, which not all who call the host may change. -/
inductive Thing
  | domain (id : DomainId)
  | entry (domain : DomainId) (tag : Tag)
  | scope (id : ScopeId)
  | stack (id : StackId)
  | promise (id : PromiseId)
  | host (id : HostId)
  | memory (host : HostId)
  | identity (number : Nat)
  deriving DecidableEq, Repr

/-- Which things of one side stand for which of the other. -/
abbrev Counterparts := Thing → Thing → Prop

namespace Counterparts

def Within (narrow wide : Counterparts) : Prop :=
  ∀ ⦃thing other⦄, narrow thing other → wide thing other

theorem Within.refl (pairs : Counterparts) : pairs.Within pairs :=
  fun _ _ paired => paired

theorem Within.trans {narrow middle wide : Counterparts} (inner : narrow.Within middle)
    (outer : middle.Within wide) : narrow.Within wide :=
  fun _ _ paired => outer (inner paired)

/-- Each thing stands for one of the other side at most, and for each at most one. -/
def OneToOne (pairs : Counterparts) : Prop :=
  ∀ ⦃first second one two⦄, pairs first one → pairs second two → (first = second ↔ one = two)

def join (pairs more : Counterparts) : Counterparts :=
  fun thing other => pairs thing other ∨ more thing other

theorem within_join (pairs more : Counterparts) : pairs.Within (pairs.join more) :=
  fun _ _ => .inl

theorem join_none (pairs : Counterparts) : (pairs.join fun _ _ => False) = pairs := by
  funext thing other
  exact or_false _

def one (thing other : Thing) : Counterparts :=
  fun first second => first = thing ∧ second = other

theorem oneToOne_one (thing other : Thing) : (one thing other).OneToOne := by
  rintro _ _ _ _ ⟨rfl, rfl⟩ ⟨rfl, rfl⟩
  exact Iff.intro (fun _ => rfl) fun _ => rfl

theorem OneToOne.join {pairs more : Counterparts} (old : pairs.OneToOne) (new : more.OneToOne)
    (apart : ∀ {thing other}, more thing other →
      (∀ like, ¬ pairs thing like) ∧ ∀ mine, ¬ pairs mine other) : (pairs.join more).OneToOne := by
  intro first second one two firstPaired secondPaired
  rcases firstPaired with one | one
  · rcases secondPaired with two | two
    · exact old one two
    · constructor
      · rintro rfl
        exact absurd one ((apart two).1 _)
      · rintro rfl
        exact absurd one ((apart two).2 _)
  · rcases secondPaired with two | two
    · constructor
      · rintro rfl
        exact absurd two ((apart one).1 _)
      · rintro rfl
        exact absurd two ((apart one).2 _)
    · exact new one two

end Counterparts

section Mirrors

variable (pairs : Counterparts)

-- Code is part of values and of closures, and its constants are values again, so these come together.
mutual

inductive Value.Mirrors : Value → Value → Prop
  | made {domain other tag payload like identity number} :
      pairs (.domain domain) (.domain other) → pairs (.entry domain tag) (.entry other tag) →
      pairs (.identity identity) (.identity number) → payload.isInstance tag →
      Payload.Mirrors payload like →
      Value.Mirrors ⟨domain, tag, payload, identity⟩ ⟨other, tag, like, number⟩

inductive Payload.Mirrors : Payload → Payload → Prop
  | null {shared} : Payload.Mirrors (.null shared) (.null shared)
  | bool {value} : Payload.Mirrors (.bool value) (.bool value)
  | int {value} : Payload.Mirrors (.int value) (.int value)
  | float {bits} : Payload.Mirrors (.float bits) (.float bits)
  | text {value} : Payload.Mirrors (.text value) (.text value)
  | symbol {name} : Payload.Mirrors (.symbol name) (.symbol name)
  | bytes {values} : Payload.Mirrors (.bytes values) (.bytes values)
  | cell {head tail first rest} :
      Value.Mirrors head first → Value.Mirrors tail rest →
      Payload.Mirrors (.cell head tail) (.cell first rest)
  | code {steps like} : Code.Mirrors steps like → Payload.Mirrors (.code steps) (.code like)
  | callable {target other} :
      Callable.Mirrors target other → Payload.Mirrors (.callable target) (.callable other)

inductive Callable.Mirrors : Callable → Callable → Prop
  | closure {scope other body like parameters} :
      pairs (.scope scope) (.scope other) → Code.Mirrors body like →
      Callable.Mirrors (.closure scope body parameters) (.closure other like parameters)
  | promise {id other} :
      pairs (.promise id) (.promise other) → Callable.Mirrors (.promise id) (.promise other)
  | makeClosure {domain other} :
      pairs (.domain domain) (.domain other) →
      Callable.Mirrors (.makeClosure domain) (.makeClosure other)
  | delay : Callable.Mirrors .delay .delay
  | force : Callable.Mirrors .force .force
  | isPromise : Callable.Mirrors .isPromise .isPromise
  | host {id other header} :
      pairs (.host id) (.host other) → Callable.Mirrors (.host id header) (.host other header)

inductive Step.Mirrors : Step → Step → Prop
  | push {value other} : Value.Mirrors value other → Step.Mirrors (.push value) (.push other)
  | get {name} : Step.Mirrors (.get name) (.get name)
  | call {name args returns} : Step.Mirrors (.call name args returns) (.call name args returns)
  | note {text} : Step.Mirrors (.note text) (.note text)

inductive Code.Mirrors : List Step → List Step → Prop
  | nil : Code.Mirrors [] []
  | cons {step other rest further} :
      Step.Mirrors step other → Code.Mirrors rest further → Code.Mirrors (step :: rest) (other :: further)

end

inductive Binding.Mirrors : Binding → Binding → Prop
  | value {bound other} : bound.Mirrors pairs other → Binding.Mirrors (.value bound) (.value other)
  | callable {target other} :
      target.Mirrors pairs other → Binding.Mirrors (.callable target) (.callable other)

def Table.Rel {κ α β : Type} (related : α → β → Prop) : Table κ α → Table κ β → Prop :=
  List.Forall₂ fun entry other => entry.1 = other.1 ∧ related entry.2 other.2

structure Scope.Mirrors (scope other : Scope) : Prop where
  bindings : Table.Rel (Binding.Mirrors pairs) scope.bindings other.bindings
  parent : Option.Rel (fun one two => pairs (.scope one) (.scope two)) scope.parent other.parent

structure Promise.Mirrors (promise other : Promise) : Prop where
  scope : Option.Rel (fun one two => pairs (.scope one) (.scope two)) promise.scope other.scope
  body : Option.Rel (Code.Mirrors pairs) promise.body other.body
  value : Option.Rel (Value.Mirrors pairs) promise.value other.value

structure Frame.Mirrors (frame other : Frame) : Prop where
  scope : pairs (.scope frame.scope) (.scope other.scope)
  stack : pairs (.stack frame.stack) (.stack other.stack)
  depth : frame.depth = other.depth

structure Memory.Mirrors (memory other : Memory) : Prop where
  count : memory.count = other.count
  frames : List.Forall₂ (Frame.Mirrors pairs) memory.frames other.frames

end Mirrors

variable {pairs wider : Counterparts}

mutual

theorem Value.Mirrors.mono (within : pairs.Within wider) {value other : Value} :
    value.Mirrors pairs other → value.Mirrors wider other
  | .made domain entry identity fits payload =>
      .made (within domain) (within entry) (within identity) fits (payload.mono within)

theorem Payload.Mirrors.mono (within : pairs.Within wider) {payload other : Payload} :
    payload.Mirrors pairs other → payload.Mirrors wider other
  | .null => .null
  | .bool => .bool
  | .int => .int
  | .float => .float
  | .text => .text
  | .symbol => .symbol
  | .bytes => .bytes
  | .cell head tail => .cell (head.mono within) (tail.mono within)
  | .code steps => .code (steps.mono within)
  | .callable target => .callable (target.mono within)

theorem Callable.Mirrors.mono (within : pairs.Within wider) {target other : Callable} :
    target.Mirrors pairs other → target.Mirrors wider other
  | .closure scope body => .closure (within scope) (body.mono within)
  | .promise id => .promise (within id)
  | .makeClosure domain => .makeClosure (within domain)
  | .delay => .delay
  | .force => .force
  | .isPromise => .isPromise
  | .host id => .host (within id)

theorem Step.Mirrors.mono (within : pairs.Within wider) {step other : Step} :
    step.Mirrors pairs other → step.Mirrors wider other
  | .push value => .push (value.mono within)
  | .get => .get
  | .call => .call
  | .note => .note

theorem Code.Mirrors.mono (within : pairs.Within wider) {code other : List Step} :
    Code.Mirrors pairs code other → Code.Mirrors wider code other
  | .nil => .nil
  | .cons step rest => .cons (step.mono within) (rest.mono within)

end

namespace Table

variable {κ α β : Type} {related wide : α → β → Prop} {table : Table κ α} {other : Table κ β}

theorem Rel.mono (same : Rel related table other) (imp : ∀ {one two}, related one two → wide one two) :
    Rel wide table other :=
  List.Forall₂.imp (fun _ _ known => ⟨known.1, imp known.2⟩) same

theorem Rel.keys (same : Rel related table other) : table.keys = other.keys := by
  induction same with
  | nil => rfl
  | cons known _ ih => exact congrArg₂ List.cons known.1 ih

variable [DecidableEq κ]

theorem Rel.get? (same : Rel related table other) (key : κ) :
    Option.Rel related (table.get? key) (other.get? key) := by
  induction same with
  | nil => exact .none
  | @cons entry like _ _ known _ ih =>
      rw [Table.get?, Table.get?, known.1]
      split
      · exact .some known.2
      · exact ih

theorem Rel.put (same : Rel related table other) (key : κ) {value : α} {like : β}
    (known : related value like) : Rel related (table.put key value) (other.put key like) := by
  induction same with
  | nil => exact .cons ⟨rfl, known⟩ .nil
  | @cons entry further _ _ first rest ih =>
      rw [Table.put, Table.put, first.1]
      split
      · exact .cons ⟨rfl, known⟩ rest
      · exact .cons ⟨rfl, first.2⟩ ih

end Table

namespace Code.Mirrors

variable {code other rest further : List Step}

theorem append (first : Code.Mirrors pairs code other) (second : Code.Mirrors pairs rest further) :
    Code.Mirrors pairs (code ++ rest) (other ++ further) := by
  induction code generalizing other with
  | nil =>
      cases first
      exact second
  | cons step steps ih =>
      cases first with
      | cons same later => exact .cons same (ih later)

theorem of_forall (same : List.Forall₂ (Step.Mirrors pairs) code other) : Code.Mirrors pairs code other := by
  induction same with
  | nil => exact .nil
  | cons first _ ih => exact .cons first ih

theorem length_eq (same : Code.Mirrors pairs code other) : code.length = other.length := by
  induction code generalizing other with
  | nil =>
      cases same
      rfl
  | cons step steps ih =>
      cases same with
      | cons _ later => rw [List.length_cons, List.length_cons, ih later]

end Code.Mirrors

namespace Callable.Mirrors

variable {target other : Callable} (same : target.Mirrors pairs other)
include same

theorem kind_eq : target.kind = other.kind := by
  cases same <;> rfl

theorem signature?_eq : target.signature? = other.signature? := by
  cases same <;> rfl

theorem classes_eq : target.classes = other.classes := by
  cases same <;> rfl

end Callable.Mirrors

namespace Payload.Mirrors

variable {payload other : Payload} (same : payload.Mirrors pairs other)
include same

theorem classes_eq : payload.classes = other.classes := by
  cases same with
  | callable target => exact target.classes_eq
  | _ => rfl

theorem isInstance_eq (tag : Tag) : payload.isInstance tag = other.isInstance tag := by
  rw [Payload.isInstance, Payload.isInstance, same.classes_eq]

theorem fits_eq (tag : Tag) : payload.fits tag = other.fits tag := by
  have instances := same.isInstance_eq tag
  cases same with
  | bool => rfl
  | _ => exact instances

theorem className_eq : payload.className = other.className := by
  cases same with
  | callable target => exact target.kind_eq
  | _ => rfl

theorem truth_eq : payload.truth = other.truth := by
  cases same <;> rfl

theorem integer_eq : payload.integer = other.integer := by
  cases same <;> rfl

theorem characters_eq : payload.characters = other.characters := by
  cases same <;> rfl

theorem symbolName_eq : payload.symbolName = other.symbolName := by
  cases same <;> rfl

theorem steps : Code.Mirrors pairs payload.steps other.steps := by
  cases same with
  | code steps => exact steps
  | _ => exact .nil

end Payload.Mirrors

namespace Value.Mirrors

variable {value other : Value}

theorem domain (same : value.Mirrors pairs other) : pairs (.domain value.domain) (.domain other.domain) := by
  cases same
  assumption

theorem entry (same : value.Mirrors pairs other) :
    pairs (.entry value.domain value.tag) (.entry other.domain other.tag) := by
  cases same
  assumption

theorem identity (same : value.Mirrors pairs other) :
    pairs (.identity value.identity) (.identity other.identity) := by
  cases same
  assumption

theorem isInstance (same : value.Mirrors pairs other) : value.payload.isInstance value.tag := by
  cases same
  assumption

theorem tag_eq (same : value.Mirrors pairs other) : value.tag = other.tag := by
  cases same
  rfl

theorem payload (same : value.Mirrors pairs other) : value.payload.Mirrors pairs other.payload := by
  cases same
  assumption

theorem same_eq (oneToOne : pairs.OneToOne) {null like : Value} (same : value.Mirrors pairs other)
    (nulls : null.Mirrors pairs like) : value.same null = other.same like := by
  have identities := oneToOne same.identity nulls.identity
  rw [Thing.identity.injEq, Thing.identity.injEq] at identities
  rw [Value.same, Value.same, Bool.eq_iff_iff, beq_iff_eq, beq_iff_eq]
  exact identities

theorem isPromise_eq (same : value.Mirrors pairs other) : value.isPromise = other.isPromise := by
  cases same with
  | @made _ _ tag _ _ _ _ _ _ _ _ same =>
      cases same with
      | callable target => cases target <;> cases tag <;> rfl
      | _ => cases tag <;> rfl

theorem walk (same : value.Mirrors pairs other) :
    List.Forall₂ (fun item like => item.1.Mirrors pairs like.1 ∧ item.2 = like.2) value.walk other.walk ∧
      value.terminator.Mirrors pairs other.terminator := by
  induction value using Value.terminator.induct generalizing other with
  | case1 domain head tail identity ih =>
      cases same with
      | made _ _ _ _ payload =>
          cases payload with
          | cell first rest =>
              obtain ⟨items, last⟩ := ih rest
              exact ⟨.cons ⟨first, by rw [rest.tag_eq]⟩ items, last⟩
  | case2 value ended =>
      have whole := id same
      cases same with
      | @made _ _ tag _ _ _ _ _ _ _ _ payload =>
          cases payload with
          | cell => cases tag with
            | cell => exact (ended _ _ _ _ rfl).elim
            | _ => exact ⟨.nil, whole⟩
          | _ => cases tag <;> exact ⟨.nil, whole⟩

theorem elements (same : value.Mirrors pairs other) :
    List.Forall₂ (Value.Mirrors pairs) value.elements other.elements := by
  rw [Value.elements, Value.elements, List.forall₂_map_left_iff, List.forall₂_map_right_iff]
  exact List.Forall₂.imp (fun _ _ known => known.1) same.walk.1

end Value.Mirrors

theorem Binding.Mirrors.mono (within : pairs.Within wider) {binding other : Binding} :
    binding.Mirrors pairs other → binding.Mirrors wider other
  | .value bound => .value (bound.mono within)
  | .callable target => .callable (target.mono within)

theorem Scope.Mirrors.mono (within : pairs.Within wider) {scope other : Scope}
    (same : scope.Mirrors pairs other) : scope.Mirrors wider other where
  bindings := same.bindings.mono fun bound => bound.mono within
  parent := rel_imp (fun paired => within paired) same.parent

theorem Promise.Mirrors.mono (within : pairs.Within wider) {promise other : Promise}
    (same : promise.Mirrors pairs other) : promise.Mirrors wider other where
  scope := rel_imp (fun paired => within paired) same.scope
  body := rel_imp (fun body => body.mono within) same.body
  value := rel_imp (fun value => value.mono within) same.value

theorem Frame.Mirrors.mono (within : pairs.Within wider) {frame other : Frame}
    (same : frame.Mirrors pairs other) : frame.Mirrors wider other where
  scope := within same.scope
  stack := within same.stack
  depth := same.depth

theorem Memory.Mirrors.mono (within : pairs.Within wider) {memory other : Memory}
    (same : memory.Mirrors pairs other) : memory.Mirrors wider other :=
  ⟨same.count, same.frames.imp fun _ _ frame => frame.mono within⟩

end LazyStack
