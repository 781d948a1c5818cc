import LazyStack.Proofs.Mirror
import LazyStack.Proofs.Reading

/-!
The words for values that mirror each other. They are the same as long as both sides name the types of
values alike and have the same words for promises that stand for each other.
-/

namespace LazyStack

structure Naming.Mirrors (pairs : Counterparts) (naming other : Naming) : Prop where
  typeName {domain like : DomainId} {tag : Tag} :
    pairs (.domain domain) (.domain like) → naming.typeName domain tag = other.typeName like tag
  promise {id like : PromiseId} :
    pairs (.promise id) (.promise like) → naming.promise id = other.promise like

variable {pairs : Counterparts} {naming other : Naming}

theorem Callable.Mirrors.text_eq (namings : naming.Mirrors pairs other) {target like : Callable}
    (same : target.Mirrors pairs like) : target.text naming = like.text other := by
  cases same with
  | promise id => exact namings.promise id
  | _ => rfl

mutual

theorem Value.Mirrors.readsAs (namings : naming.Mirrors pairs other) {value like : Value} :
    value.Mirrors pairs like → value.ReadsAs Eq naming other like
  | .made domain _ _ _ same => .made (namings.typeName domain) (same.readsAs namings)

theorem Payload.Mirrors.readsAs (namings : naming.Mirrors pairs other) {payload datum : Payload} :
    payload.Mirrors pairs datum → payload.ReadsAs Eq naming other datum
  | .null | .bool | .int | .float | .text | .symbol | .bytes => .atom rfl
  | .cell head tail => .cell (head.readsAs namings) (tail.readsAs namings)
  | .code steps => .code (steps.readsAs namings)
  | .callable target => .callable (target.text_eq namings)

theorem Code.Mirrors.readsAs (namings : naming.Mirrors pairs other) {code like : List Step} :
    Code.Mirrors pairs code like → Code.ReadsAs Eq naming other code like
  | .nil => .nil
  | .cons (.push value) rest => .push (value.readsAs namings) (rest.readsAs namings)
  | .cons .get rest | .cons .call rest | .cons .note rest => .same (by rintro _ ⟨⟩) (rest.readsAs namings)

end

theorem Value.Mirrors.text_eq (namings : naming.Mirrors pairs other) {value like : Value}
    (same : value.Mirrors pairs like) (options : TextOptions) (depth : Nat) :
    value.text naming options depth = like.text other options depth :=
  (same.readsAs namings).text Written.wording_eq options depth

theorem Value.Mirrors.tagged_eq (namings : naming.Mirrors pairs other) {value like : Value}
    (same : value.Mirrors pairs like) : value.tagged naming = like.tagged other :=
  (same.readsAs namings).angled Written.wording_eq (same.text_eq namings .standard 0)

theorem Payload.Mirrors.quoted_eq (namings : naming.Mirrors pairs other) {payload like : Payload}
    (same : payload.Mirrors pairs like) : payload.quoted naming = like.quoted other :=
  (same.readsAs namings).quoted Written.wording_eq

theorem Code.Mirrors.listings_eq (namings : naming.Mirrors pairs other) {code like : List Step}
    (same : Code.Mirrors pairs code like) : Step.listings naming code = Step.listings other like :=
  List.forall₂_eq_eq_eq.le _ _ ((same.readsAs namings).listings Written.wording_eq)

theorem Code.Mirrors.quotedAll_eq (namings : naming.Mirrors pairs other) {code like : List Step}
    (same : Code.Mirrors pairs code like) : Step.quotedAll naming code = Step.quotedAll other like :=
  List.forall₂_eq_eq_eq.le _ _ ((same.readsAs namings).quotedAll Written.wording_eq)

theorem Binding.Mirrors.text_eq (namings : naming.Mirrors pairs other) {binding like : Binding} :
    binding.Mirrors pairs like → binding.text naming = like.text other
  | .value bound => bound.text_eq namings .standard 0
  | .callable target => target.text_eq namings

theorem Table.Rel.entries_eq (namings : naming.Mirrors pairs other) {bindings others : Table String Binding}
    (same : Table.Rel (Binding.Mirrors pairs) bindings others) :
    bindings.map (fun entry => enclosed (entry.1 ++ ": ") "" (entry.2.text naming)) =
      others.map (fun entry => enclosed (entry.1 ++ ": ") "" (entry.2.text other)) := by
  induction same with
  | nil => rw [List.map_nil, List.map_nil]
  | cons first _ ih => rw [List.map_cons, List.map_cons, first.1, first.2.text_eq namings, ih]

theorem Scope.Mirrors.text_eq (namings : naming.Mirrors pairs other) {scope like : Scope}
    (same : scope.Mirrors pairs like) : scope.text naming = like.text other := by
  have inner : scope.parent.isSome = like.parent.isSome := by
    have parents := same.parent
    generalize scope.parent = parent at parents
    generalize like.parent = above at parents
    cases parents <;> rfl
  rw [Scope.text, Scope.text, same.bindings.entries_eq namings, inner]

end LazyStack
