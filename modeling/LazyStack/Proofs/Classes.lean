import LazyStack.Proofs.Run
import Mathlib.Logic.Relation

/-!
The classes of payloads. Classes derive from one another, each from one at most, and a payload is of its own class
and of all from which that derives. An abstract class may count any of these as its own besides. A domain that wraps
a payload puts it under the narrowest class that it has a name for. On request it puts the same payload under any
class that has a name and the payload for an instance, but a truth value under its own class alone.
-/

namespace LazyStack

namespace Tag

def base? : Tag → Option Tag
  | .object => none
  | .bool => some .int
  | .fixed => some .callable
  | .closure => some .fixed
  | .promise => some .fixed
  | _ => some .object

abbrev IsA : Tag → Tag → Prop :=
  Relation.ReflTransGen fun tag base => tag.base? = some base

/-- A class and all from which it derives, the nearest first. -/
inductive Lineage : Tag → List Tag → Prop
  | root {tag} : tag.base? = none → Lineage tag [tag]
  | derived {tag base rest} : tag.base? = some base → Lineage base rest → Lineage tag (tag :: rest)

variable {tag : Tag} {line : List Tag}

theorem isA_iff (tag general : Tag) :
    tag.IsA general ↔ tag = general ∨ ∃ base, tag.base? = some base ∧ base.IsA general :=
  Relation.ReflTransGen.cases_head_iff

theorem Lineage.mem_iff (lineage : tag.Lineage line) (general : Tag) : general ∈ line ↔ tag.IsA general := by
  induction lineage with
  | root none =>
      rw [List.mem_singleton, isA_iff, none]
      simp [eq_comm]
  | @derived tag base rest derives _ ih =>
      rw [List.mem_cons, ih, isA_iff tag, derives, eq_comm]
      simp

theorem Lineage.narrowest (lineage : tag.Lineage line) {property : Tag → Bool} {first other : Tag}
    (found : line.find? property = some first) (member : other ∈ line) (has : property other) :
    first.IsA other := by
  induction lineage with
  | root none =>
      rw [List.mem_singleton] at member
      have same := List.mem_singleton.mp (List.mem_of_find?_eq_some found)
      rw [same, member]
  | @derived tag base rest derives further ih =>
      rw [List.find?_cons] at found
      split at found
      next =>
        cases found
        exact ((Lineage.derived derives further).mem_iff other).mp member
      next lacks =>
        rcases List.mem_cons.mp member with rfl | later
        · exact absurd has (by simp [lacks])
        · exact ih found later

end Tag

def Callable.ownClass : Callable → Tag
  | .closure _ _ _ => .closure
  | .promise _ => .promise
  | other => if other.signature?.isSome then .fixed else .callable

def Payload.ownClass : Payload → Tag
  | .null _ => .null
  | .bool _ => .bool
  | .int _ => .int
  | .float _ => .float
  | .text _ => .text
  | .symbol _ => .symbol
  | .bytes _ => .bytes
  | .cell _ _ => .cell
  | .code _ => .code
  | .callable target => target.ownClass

theorem Callable.lineage (target : Callable) : target.ownClass.Lineage target.classes := by
  have object : Tag.Lineage .object [.object] := .root rfl
  have callable : Tag.Lineage .callable [.callable, .object] := .derived rfl object
  have fixed : Tag.Lineage .fixed [.fixed, .callable, .object] := .derived rfl callable
  cases target with
  | closure scope body parameters => exact .derived rfl fixed
  | promise id => exact .derived rfl fixed
  | makeClosure domain => exact fixed
  | delay => exact fixed
  | force => exact fixed
  | isPromise => exact fixed
  | host id header =>
      cases declared : header.signature with
      | none => simpa [ownClass, classes, signature?, declared] using callable
      | some signature => simpa [ownClass, classes, signature?, declared] using fixed

theorem Payload.lineage (payload : Payload) : payload.ownClass.Lineage payload.classes := by
  have object : Tag.Lineage .object [.object] := .root rfl
  cases payload with
  | bool truth => exact .derived rfl (.derived rfl object)
  | callable target => exact target.lineage
  | _ => exact .derived rfl object

/-- An abstract class counts a class of the payload as its own. -/
def Payload.CountsAs (payload : Payload) (tag : Tag) : Prop :=
  ∃ own, payload.ownClass.IsA own ∧ own.label ∈ tag.members

theorem Payload.isInstance_iff {payload : Payload} {tag : Tag} :
    payload.isInstance tag ↔ payload.ownClass.IsA tag ∨ payload.CountsAs tag := by
  rw [isInstance, List.any_eq_true, CountsAs, ← payload.lineage.mem_iff]
  simp only [← payload.lineage.mem_iff, decide_eq_true_eq]
  constructor
  · rintro ⟨own, member, rfl | counted⟩
    · exact .inl member
    · exact .inr ⟨own, member, counted⟩
  · rintro (member | ⟨own, member, counted⟩)
    · exact ⟨tag, member, .inl rfl⟩
    · exact ⟨own, member, .inr counted⟩

theorem Payload.isInstance_of_mem {payload : Payload} {tag : Tag} (kind : tag ∈ payload.classes) :
    payload.isInstance tag :=
  isInstance_iff.mpr (.inl ((payload.lineage.mem_iff tag).mp kind))

theorem Callable.fits_callable (target : Callable) : (Payload.callable target).fits .callable := by
  refine Payload.isInstance_of_mem ?_
  cases target with
  | host id header =>
      cases declared : header.signature <;> simp [Payload.classes, Callable.classes, Callable.signature?, declared]
  | _ => simp [Payload.classes, Callable.classes, Callable.signature?]

theorem Payload.mem_classes_of_isInstance {payload : Payload} {tag : Tag} (kind : payload.isInstance tag)
    (concrete : tag.members = []) : tag ∈ payload.classes := by
  rcases isInstance_iff.mp kind with isA | ⟨own, _, counted⟩
  · exact (payload.lineage.mem_iff tag).mpr isA
  · rw [concrete] at counted
    cases counted

theorem Payload.fits_iff {payload : Payload} {tag : Tag} :
    payload.fits tag ↔ payload.isInstance tag ∧ ∀ truth, payload = .bool truth → tag = .bool := by
  cases payload with
  | bool truth =>
      constructor
      · intro fits
        obtain rfl : tag = .bool := of_decide_eq_true fits
        exact ⟨isInstance_iff.mpr (.inl .refl), fun _ _ => rfl⟩
      · rintro ⟨_, own⟩
        exact decide_eq_true (own truth rfl)
  | _ => simp [fits]

theorem Payload.isInstance_of_fits {payload : Payload} {tag : Tag} (fits : payload.fits tag) :
    payload.isInstance tag :=
  (fits_iff.mp fits).1

/-- The domains that there are. A domain begins with a name for nulls and with a null of its own, and one tag after
the other is registered in it. -/
inductive Domain.Made (id : DomainId) : Domain → Prop
  | bare (identity : Nat) : Made id ⟨[(.null, "null")], ⟨id, .null, .null true, identity⟩⟩
  | registered {domain later tag name} :
      Made id domain → domain.register tag name = .ok later → Made id later

/-- The narrowest class of a payload that a domain has a name for. -/
structure Domain.Narrowest (domain : Domain) (payload : Payload) (tag : Tag) : Prop where
  named : (domain.names.get? tag).isSome
  isA : payload.ownClass.IsA tag
  narrowest {other : Tag} : (domain.names.get? other).isSome → payload.ownClass.IsA other → tag.IsA other

namespace Domain

variable {id : DomainId} {domain later : Domain} {payload : Payload} {tag other : Tag} {name : String}

theorem null_register (registered : domain.register tag name = .ok later) : later.null = domain.null := by
  rw [register] at registered
  split at registered
  · split at registered
    · cases registered
      rfl
    · cases registered
  · cases registered
    rfl

theorem named_register (registered : domain.register tag name = .ok later)
    (named : (domain.names.get? other).isSome) : (later.names.get? other).isSome := by
  rw [register] at registered
  split at registered
  · split at registered
    · cases registered
      exact named
    · cases registered
  · cases registered
    by_cases same : tag = other
    · rw [same, Table.get?_put_self]
      rfl
    · rwa [Table.get?_put_of_ne same]

theorem Made.null (made : Made id domain) :
    (domain.names.get? .null).isSome ∧ ∃ identity, domain.null = ⟨id, .null, .null true, identity⟩ := by
  induction made with
  | bare identity => exact ⟨rfl, identity, rfl⟩
  | registered _ registers ih =>
      obtain ⟨named, identity, same⟩ := ih
      exact ⟨named_register registers named, identity, (null_register registers).trans same⟩

theorem narrowest_of_tagFor? (chosen : domain.tagFor? payload = some tag) : domain.Narrowest payload tag where
  named := List.find?_some (p := fun tag => (domain.names.get? tag).isSome) chosen
  isA := (payload.lineage.mem_iff tag).mp (List.mem_of_find?_eq_some chosen)
  narrowest named isA := payload.lineage.narrowest chosen ((payload.lineage.mem_iff _).mpr isA) named

theorem unnamed_of_tagFor? (unclassified : domain.tagFor? payload = none) (isA : payload.ownClass.IsA tag) :
    ¬ (domain.names.get? tag).isSome :=
  fun named => List.find?_eq_none.mp unclassified tag ((payload.lineage.mem_iff tag).mpr isA) named

theorem narrowest_null (named : (domain.names.get? .null).isSome) (shared : Bool) :
    domain.Narrowest (.null shared) .null :=
  ⟨named, .refl, fun _ isA => isA⟩

theorem eq_bool_of_tagFor? {truth : Bool} (chosen : domain.tagFor? (.bool truth) = some tag) :
    tag = .bool ↔ (domain.names.get? .bool).isSome := by
  constructor
  · rintro rfl
    exact (narrowest_of_tagFor? chosen).named
  · intro named
    rw [tagFor?, Payload.classes, List.find?_cons, named] at chosen
    exact (Option.some.inj chosen).symm

theorem fits_of_unclassified (unclassified : domain.tagFor? payload = none)
    (named : (domain.names.get? tag).isSome) :
    payload.fits tag ↔ (∀ truth, payload ≠ .bool truth) ∧ payload.CountsAs tag := by
  have underived : ¬ payload.ownClass.IsA tag := fun isA => unnamed_of_tagFor? unclassified isA named
  rw [Payload.fits_iff, Payload.isInstance_iff, or_iff_right underived]
  constructor
  · rintro ⟨counted, own⟩
    refine ⟨?_, counted⟩
    rintro truth rfl
    exact underived (own truth rfl ▸ .refl)
  · rintro ⟨other, counted⟩
    exact ⟨counted, fun truth same => absurd same (other truth)⟩

end Domain

/-- What a domain wraps it has under the narrowest class of the payload with a name, and it makes the same on request,
unless that is a truth value and these have no name. What it does not wrap it makes under no class but an abstract one
that counts the payload as its own, and a truth value not even then. -/
theorem wrapped_under_narrowest_class (domain : DomainId) (payload : Payload) (state : State)
    (made : Domain.Made domain (state.domain domain)) :
    (∀ value final, domain.wrap payload state = .ok value final →
      value.domain = domain ∧ value.payload = payload ∧
        (state.domain domain).Narrowest payload value.tag ∧
        ((∃ identity later, domain.create value.tag payload state =
            .ok ⟨domain, value.tag, payload, identity⟩ later) ↔
          ∀ truth, payload = .bool truth → ((state.domain domain).names.get? .bool).isSome)) ∧
    ∀ failure final, domain.wrap payload state = .error failure final →
      failure.kind = .type ∧ final = state ∧ ∀ tag,
        (∃ value later, domain.create tag payload state = .ok value later) ↔
          ((state.domain domain).names.get? tag).isSome ∧ (∀ truth, payload ≠ .bool truth) ∧
            payload.CountsAs tag := by
  obtain ⟨nullNamed, identity, own⟩ := made.null
  by_cases shared : payload = .null true
  · subst shared
    have wrapped : domain.wrap (.null true) state = .ok ⟨domain, .null, .null true, identity⟩ state :=
      congrArg (EStateM.Result.ok · state) own
    constructor
    · intro value final ran
      cases wrapped.symm.trans ran
      have fits : (Payload.null true).fits .null := by decide
      exact ⟨rfl, rfl, Domain.narrowest_null nullNamed true,
        iff_of_true ⟨_, _, DomainId.create_of_fits nullNamed fits⟩ fun _ other => nomatch other⟩
    · intro failure final failed
      cases wrapped.symm.trans failed
  · cases chosen : (state.domain domain).tagFor? payload with
    | none =>
        have refused := DomainId.wrap_of_unclassified shared chosen
        constructor
        · intro value final ran
          cases refused.symm.trans ran
        · intro failure final failed
          cases refused.symm.trans failed
          refine ⟨rfl, rfl, fun tag => ?_⟩
          constructor
          · rintro ⟨value, later, created⟩
            obtain ⟨named, fits⟩ := DomainId.fits_of_create created
            exact ⟨named, (Domain.fits_of_unclassified chosen named).mp fits⟩
          · rintro ⟨named, counted⟩
            exact ⟨_, _, DomainId.create_of_fits named ((Domain.fits_of_unclassified chosen named).mpr counted)⟩
    | some tag =>
        have wrapped := DomainId.wrap_of_tagFor? shared chosen
        have narrowest := Domain.narrowest_of_tagFor? chosen
        constructor
        · intro value final ran
          cases wrapped.symm.trans ran
          refine ⟨rfl, rfl, narrowest, ?_, ?_⟩
          · rintro ⟨_, _, created⟩ truth rfl
            obtain ⟨named, fits⟩ := DomainId.fits_of_create created
            exact (Domain.eq_bool_of_tagFor? chosen).mp ((Payload.fits_iff.mp fits).2 truth rfl)
          · intro named
            have instances := Payload.isInstance_iff.mpr (.inl narrowest.isA)
            refine ⟨_, _, DomainId.create_of_fits narrowest.named (Payload.fits_iff.mpr ⟨instances, ?_⟩)⟩
            rintro truth rfl
            exact (Domain.eq_bool_of_tagFor? chosen).mpr (named truth rfl)
        · intro failure final failed
          cases wrapped.symm.trans failed

theorem Domain.made_standard (id : DomainId) (identity : Nat) :
    Made id ⟨standardNames, ⟨id, .null, .null true, identity⟩⟩ := by
  have bare : Made id ⟨[(.null, "null")], ⟨id, .null, .null true, identity⟩⟩ := .bare identity
  have truths := bare.registered (show register _ .bool "bool" = .ok _ from rfl)
  have integers := truths.registered (show register _ .int "int" = .ok _ from rfl)
  have floats := integers.registered (show register _ .float "float" = .ok _ from rfl)
  have texts := floats.registered (show register _ .text "str" = .ok _ from rfl)
  have symbols := texts.registered (show register _ .symbol "symbol" = .ok _ from rfl)
  have cells := symbols.registered (show register _ .cell "cons" = .ok _ from rfl)
  have codes := cells.registered (show register _ .code "code" = .ok _ from rfl)
  exact codes.registered (show register _ .callable "callable" = .ok _ from rfl)

def standardOnly : State :=
  Run.newStandardDomain.after (.empty 125)

theorem closure_wrapped_as_callable :
    Domain.Made ⟨0⟩ (standardOnly.domain ⟨0⟩) ∧
      ∃ value final, DomainId.wrap ⟨0⟩ (.callable (.closure ⟨0⟩ [] ["x"])) standardOnly = .ok value final ∧
        value.tag = .callable ∧
        (standardOnly.domain ⟨0⟩).Narrowest (.callable (.closure ⟨0⟩ [] ["x"])) .callable ∧
        ∃ identity later, DomainId.create ⟨0⟩ .callable (.callable (.closure ⟨0⟩ [] ["x"])) standardOnly =
          .ok ⟨⟨0⟩, .callable, .callable (.closure ⟨0⟩ [] ["x"]), identity⟩ later := by
  have made : Domain.Made ⟨0⟩ (standardOnly.domain ⟨0⟩) := Domain.made_standard ⟨0⟩ 0
  obtain ⟨wraps, -⟩ := wrapped_under_narrowest_class ⟨0⟩ (.callable (.closure ⟨0⟩ [] ["x"])) standardOnly made
  obtain ⟨-, -, narrowest, agrees⟩ := wraps _ _ rfl
  exact ⟨made, _, _, rfl, rfl, narrowest, agrees.mpr fun _ other => nomatch other⟩

def integersOnly : State :=
  Run.after (do (← Run.newBareDomain).register .int "int") (.empty 125)

/-- Without a name for truth values one is wrapped as an integer, which it is refused to be on request. -/
theorem truth_value_wrapped_as_integer :
    Domain.Made ⟨0⟩ (integersOnly.domain ⟨0⟩) ∧
      ∃ value final, DomainId.wrap ⟨0⟩ (.bool true) integersOnly = .ok value final ∧ value.tag = .int ∧
        DomainId.create ⟨0⟩ .int (.bool true) integersOnly = .error (.misfit "True" "int") integersOnly := by
  have bare : Domain.Made ⟨0⟩ ⟨[(.null, "null")], ⟨⟨0⟩, .null, .null true, 0⟩⟩ := .bare 0
  have made := bare.registered (show Domain.register _ .int "int" = .ok _ from rfl)
  exact ⟨made, _, _, rfl, rfl, rfl⟩

end LazyStack
