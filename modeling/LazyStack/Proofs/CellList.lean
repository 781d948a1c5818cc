import LazyStack.Proofs.ParameterList
import LazyStack.Proofs.Tagging

/-!
Lists and their items. A chain of cells holds items in order and goes on to the first value that is no cell, which
ends it. Walking a value follows its chain, and building a list of items puts a chain of new cells before that of
the rest, so what is built is walked as what it was built of, and what is walked is built again of what was met.
-/

namespace LazyStack

namespace Value

/-- A chain of cells, with the items that they hold and the value that ends it. -/
inductive Chain : Value → List Value → Value → Prop
  | ends {last} : last.tag ≠ .cell → Chain last [] last
  | cell {domain head tail items last identity} :
      Chain tail items last → Chain ⟨domain, .cell, .cell head tail, identity⟩ (head :: items) last

variable {value other last : Value} {items : List Value}

theorem Chain.tag_eq_iff (chain : value.Chain items last) : value.tag = .cell ↔ items ≠ [] := by
  cases chain with
  | ends plain => simpa using plain
  | cell _ => simp

theorem Chain.last_ne (chain : value.Chain items last) : last.tag ≠ .cell := by
  induction chain with
  | ends plain => exact plain
  | cell _ ih => exact ih

theorem Chain.terminator_eq (chain : value.Chain items last) : value.terminator = last := by
  induction chain with
  | ends plain => exact terminator_of_ne_cell plain
  | cell _ ih => exact ih

theorem Chain.walk_eq (chain : value.Chain items last) :
    value.walk = items.mapIdx fun index item => (item, decide (index + 1 = items.length)) := by
  induction chain with
  | ends plain => exact List.map_eq_nil_iff.mp (elements_of_ne_cell plain)
  | @cell _ head tail items last _ rest ih =>
      have mark : decide (tail.tag ≠ .cell) = decide (0 + 1 = (head :: items).length) := by
        rw [decide_eq_decide, ne_eq, rest.tag_eq_iff, not_not, List.length_cons]
        simp
      rw [walk, ih, List.mapIdx_cons, mark]
      simp

theorem Chain.elements_eq (chain : value.Chain items last) : value.elements = items := by
  rw [elements, chain.walk_eq]
  apply List.ext_getElem?
  intro index
  simp [Function.comp_def]

end Value

theorem Payload.cell_of_kind {payload : Payload} (instances : payload.isInstance .cell) :
    ∃ head tail, payload = .cell head tail := by
  have kind := mem_classes_of_isInstance instances rfl
  cases payload with
  | cell head tail => exact ⟨head, tail, rfl⟩
  | callable target => exact absurd kind (Callable.not_mem_classes (by decide) target)
  | _ => simp [Payload.classes] at kind

theorem Value.exists_chain {value : Value}
    (tagged : ∀ inner : Value, inner.Inside value → inner.payload.isInstance inner.tag) :
    ∃ items last, value.Chain items last := by
  induction value using Value.walk.induct with
  | case1 domain head tail identity ih =>
      obtain ⟨items, last, chain⟩ := ih fun inner inside => tagged inner (.part (.tail inside))
      exact ⟨head :: items, last, .cell chain⟩
  | case2 value other =>
      refine ⟨[], value, .ends fun cell => ?_⟩
      have kind := tagged value .itself
      rw [cell] at kind
      obtain ⟨head, tail, same⟩ := Payload.cell_of_kind kind
      obtain ⟨domain, tag, payload, identity⟩ := value
      exact other domain head tail identity (by rw [← cell, ← same])

theorem DomainId.list_of_named {domain : DomainId} {state : State} (items : List Value) (rest : Value)
    (named : ((state.domain domain).names.get? .cell).isSome) :
    ∃ list after, domain.list items rest state = .ok list after ∧ after.domain domain = state.domain domain ∧
      (items = [] → list = rest) ∧
      ∀ {others last}, rest.Chain others last → list.Chain (items ++ others) last := by
  induction items with
  | nil => exact ⟨rest, state, rfl, rfl, fun _ => rfl, fun chain => chain⟩
  | cons item items ih =>
      obtain ⟨tail, middle, further, kept, -, chained⟩ := ih
      obtain ⟨_, after, built, still⟩ := list_cons (kept ▸ named) further
      exact ⟨_, after, built, still.trans kept, nofun, fun chain => .cell (chained chain)⟩

/-- A list built of items before any rest is walked from the first item to the last of the rest, the last alone marked,
and ends in the very value that ends the rest. Of what a list has been walked as it is built again. -/
theorem list_building_inverts_walking (domain : DomainId) (items : List Value) (rest : Value) (state : State)
    (named : ((state.domain domain).names.get? .cell).isSome)
    (tagged : ∀ inner : Value, inner.Inside rest → inner.payload.isInstance inner.tag) :
    (rest.Chain rest.elements rest.terminator ∧
        (rest.tag ≠ .cell → rest.elements = [] ∧ rest.terminator = rest)) ∧
      (∃ list after, domain.list items rest state = .ok list after ∧ (items = [] → list = rest) ∧
        list.Chain (items ++ rest.elements) rest.terminator ∧
        list.elements = items ++ rest.elements ∧ list.terminator = rest.terminator ∧
        list.walk.length = items.length + rest.elements.length ∧
        list.walk = (items ++ rest.elements).mapIdx fun index item =>
          (item, decide (index + 1 = items.length + rest.elements.length))) ∧
      (rest.tag = .cell → ∃ list after, domain.list rest.elements rest.terminator state = .ok list after ∧
        list.tag = .cell ∧ list.elements = rest.elements ∧ list.terminator = rest.terminator) := by
  obtain ⟨others, last, chain⟩ := Value.exists_chain tagged
  obtain ⟨list, after, built, -, empty, chained⟩ := DomainId.list_of_named items rest named
  obtain ⟨again, final, rebuilt, -, -, alike⟩ := DomainId.list_of_named others last named
  have whole := chained chain
  have like := alike (.ends chain.last_ne)
  rw [List.append_nil] at like
  rw [chain.elements_eq, chain.terminator_eq]
  refine ⟨⟨chain, fun plain => ?_⟩, ⟨list, after, built, empty, whole, whole.elements_eq, whole.terminator_eq, ?_, ?_⟩,
    fun cell => ⟨again, final, rebuilt, ?_, like.elements_eq, like.terminator_eq⟩⟩
  · cases chain with
    | ends _ => exact ⟨rfl, rfl⟩
    | cell _ => exact absurd rfl plain
  · rw [whole.walk_eq, List.length_mapIdx, List.length_append]
  · rw [whole.walk_eq, List.length_append]
  · exact like.tag_eq_iff.mpr (chain.tag_eq_iff.mp cell)

def foreignText : Value :=
  ⟨⟨1⟩, .text, .text "x", 5⟩

/-- A cell that is tagged as an object, and so is no list. -/
def boxedCell : Value :=
  ⟨⟨0⟩, .object, .cell foreignText foreignText, 6⟩

def openPair : Value :=
  ⟨⟨0⟩, .cell, .cell foreignText boxedCell, 7⟩

theorem foreignText_tagged {inner : Value} (inside : inner.Inside foreignText) :
    inner.payload.isInstance inner.tag := by
  cases inside with
  | itself => decide
  | part inside => cases inside

theorem openPair_tagged (inner : Value) (inside : inner.Inside openPair) : inner.payload.isInstance inner.tag := by
  cases inside with
  | itself => decide
  | part inside => cases inside with
      | head inside => exact foreignText_tagged inside
      | tail inside => cases inside with
          | itself => decide
          | part inside => cases inside with
              | head inside => exact foreignText_tagged inside
              | tail inside => exact foreignText_tagged inside

theorem list_building_inverts_walking_before_openPair :
    ∃ list after, DomainId.list ⟨0⟩ [boxedCell] openPair standardOnly = .ok list after ∧
      list.walk = [(boxedCell, false), (foreignText, true)] ∧ list.terminator = boxedCell := by
  obtain ⟨-, ⟨list, after, built, -, -, -, ends, -, walked⟩, -⟩ :=
    list_building_inverts_walking ⟨0⟩ [boxedCell] openPair standardOnly (by decide) openPair_tagged
  exact ⟨list, after, built, walked, ends⟩

end LazyStack
