import LazyStack.Proofs.CellList
import LazyStack.Value.Text

/-!
The text of a list by its items. Between its brackets stand the texts of its first items, as many as the options
allow, then a mark if there are more, and then the value that ends it, unless that is a null.
-/

namespace LazyStack

def Value.ending (naming : Naming) (options : TextOptions) (depth : Nat) (last : Value) : List (Written String) :=
  if last.tag = .null then [] else [.ok ".", last.text naming options depth]

/-- What a list shows from an index on, where the value is what the list goes on with. -/
def Value.remainder (naming : Naming) (options : TextOptions) (depth index : Nat) (value : Value) :
    List (Written String) :=
  if value.tag = .cell then value.payload.items naming options depth index else value.ending naming options depth

variable {naming : Naming} {options : TextOptions} {depth index : Nat} {value last : Value} {items : List Value}

theorem Payload.items_cell (head tail : Value) :
    (Payload.cell head tail).items naming options depth index =
      (if index < options.maxItems then [head.text naming options depth]
        else if index = options.maxItems then [.ok "..."]
        else []) ++ tail.remainder naming options depth (index + 1) := by
  obtain ⟨domain, tag, payload, identity⟩ := tail
  cases tag <;> simp [Payload.items, Value.remainder, Value.ending]

theorem Value.Chain.remainder_eq (chain : value.Chain items last) :
    value.remainder naming options depth index =
      (items.take (options.maxItems - index)).map (fun item => item.text naming options depth) ++
        (if index ≤ options.maxItems ∧ options.maxItems < index + items.length then [.ok "..."] else []) ++
        last.ending naming options depth := by
  induction chain generalizing index with
  | ends plain =>
      rw [Value.remainder, if_neg plain, if_neg (by simp)]
      simp
  | @cell _ head tail items last _ _ ih =>
      rw [Value.remainder, if_pos rfl, Payload.items_cell, ih, List.length_cons]
      -- Before the limit an item is shown, at the limit the mark, and after it nothing.
      rcases Nat.lt_trichotomy index options.maxItems with below | rfl | above
      · rw [if_pos below, show options.maxItems - index = options.maxItems - (index + 1) + 1 by omega]
        have mark : (index + 1 ≤ options.maxItems ∧ options.maxItems < index + 1 + items.length) ↔
            (index ≤ options.maxItems ∧ options.maxItems < index + (items.length + 1)) := by omega
        simp only [mark, List.take_succ_cons, List.map_cons, List.cons_append, List.nil_append]
      · simp [show ¬ options.maxItems + 1 ≤ options.maxItems by omega]
      · simp [show ¬ index < options.maxItems by omega, show ¬ index = options.maxItems by omega,
          show ¬ index ≤ options.maxItems by omega, show ¬ index + 1 ≤ options.maxItems by omega,
          show options.maxItems - index = 0 by omega, show options.maxItems - (index + 1) = 0 by omega]

end LazyStack
