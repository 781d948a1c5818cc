import LazyStack.Proofs.Run

/-!
Block pops against single pops. As many single pops as a block holds yield its values from the last to the first and
leave the same stack. Where the stack is too short they use it up, while the block pop leaves it as it was.
-/

namespace LazyStack

namespace StackId

/-- One pop after the other, with the values in the order in which they come off. -/
def popOneByOne (stack : StackId) : Nat → Run (List Value)
  | 0 => return []
  | count + 1 => do
      let top ← stack.pop
      let others ← stack.popOneByOne count
      return top :: others

def pushInOrder (stack : StackId) : List Value → Run Unit
  | [] => return
  | value :: values => do
      stack.push value
      stack.pushInOrder values

variable {stack : StackId} {state after : State} {values : List Value} {count : Nat}

theorem popMany_of_fits (fits : count ≤ (state.operands stack).length) :
    stack.popMany count state = .ok ((state.operands stack).take count).reverse
      (state.setOperands stack ((state.operands stack).drop count)) := by
  have enough : ¬ ((state.operands stack).length : Int) < count := by omega
  have size : (state.operands stack).blockSize count = count := if_pos (Int.natCast_nonneg count)
  rw [popMany_apply, if_neg enough, size]

theorem popMany_of_short (short : (state.operands stack).length < count) :
    stack.popMany count state = .error (.shortStack count (state.operands stack).length) state := by
  rw [popMany_apply, if_pos (Int.ofNat_lt.mpr short)]

section Single

variable {value : Value} {rest : Operands}

theorem operands_after_pop (present : state.operands stack = value :: rest) :
    (state.setOperands stack rest).operands stack = rest :=
  State.operands_setOperands_self (State.hasStack_of_operands (by simp [present])) rest

theorem popOneByOne_of_fits (fits : count ≤ (state.operands stack).length) :
    stack.popOneByOne count state = .ok ((state.operands stack).take count)
      (state.setOperands stack ((state.operands stack).drop count)) := by
  induction count generalizing state with
  | zero =>
      rw [List.take_zero, List.drop_zero, State.setOperands_operands]
      rfl
  | succ count ih =>
      obtain ⟨value, rest, present⟩ := List.exists_cons_of_length_pos (by omega : 0 < (state.operands stack).length)
      have left := operands_after_pop present
      rw [present, List.length_cons] at fits
      have others := @ih (state.setOperands stack rest) (by rw [left]; omega)
      rw [left, State.setOperands_setOperands] at others
      rw [popOneByOne, Run.bind_of_ok (stack.pop_of_cons state present), Run.bind_of_ok others, present]
      rfl

theorem popOneByOne_of_short (short : (state.operands stack).length < count) :
    stack.popOneByOne count state = .error .underflow (state.setOperands stack []) := by
  induction count generalizing state with
  | zero => omega
  | succ count ih =>
      cases present : state.operands stack with
      | nil =>
          rw [popOneByOne, Run.bind_of_error (stack.pop_of_nil state present), ← present, State.setOperands_operands]
      | cons value rest =>
          rw [present, List.length_cons] at short
          have others := @ih (state.setOperands stack rest) (by rw [operands_after_pop present]; omega)
          rw [State.setOperands_setOperands] at others
          rw [popOneByOne, Run.bind_of_ok (stack.pop_of_cons state present), Run.bind_of_error others]

end Single

theorem pushInOrder_apply (values : List Value) (state : State) :
    stack.pushInOrder values state = .ok () (state.setOperands stack (values.reverse ++ state.operands stack)) := by
  induction values generalizing state with
  | nil =>
      rw [List.reverse_nil, List.nil_append, State.setOperands_operands]
      rfl
  | cons value values ih =>
      rw [pushInOrder, Run.bind_of_ok (stack.push_apply state value), ih, State.setOperands_setOperands]
      by_cases made : state.HasStack stack
      · rw [State.operands_setOperands_self made, List.reverse_cons, List.append_assoc, List.singleton_append]
      · rw [State.setOperands_of_not_hasStack made, State.setOperands_of_not_hasStack made]

theorem popMany_eq_ok_iff : stack.popMany count state = .ok values after ↔
    count ≤ (state.operands stack).length ∧ ((state.operands stack).take count).reverse = values ∧
      state.setOperands stack ((state.operands stack).drop count) = after := by
  rcases Nat.lt_or_ge (state.operands stack).length count with short | fits
  · rw [popMany_of_short short]
    exact iff_of_false nofun fun fitting => Nat.not_le_of_lt short fitting.1
  · rw [popMany_of_fits fits, EStateM.Result.ok.injEq, and_iff_right fits]

theorem popOneByOne_eq_ok_iff : stack.popOneByOne count state = .ok values after ↔
    count ≤ (state.operands stack).length ∧ (state.operands stack).take count = values ∧
      state.setOperands stack ((state.operands stack).drop count) = after := by
  rcases Nat.lt_or_ge (state.operands stack).length count with short | fits
  · rw [popOneByOne_of_short short]
    exact iff_of_false nofun fun fitting => Nat.not_le_of_lt short fitting.1
  · rw [popOneByOne_of_fits fits, EStateM.Result.ok.injEq, and_iff_right fits]

theorem pushInOrder_of_popMany (popped : stack.popMany count state = .ok values after) :
    stack.pushInOrder values after = .ok () state := by
  obtain ⟨-, rfl, rfl⟩ := popMany_eq_ok_iff.mp popped
  rw [pushInOrder_apply, State.setOperands_setOperands, List.reverse_reverse]
  by_cases made : state.HasStack stack
  · rw [State.operands_setOperands_self made, List.take_append_drop, State.setOperands_operands]
  · rw [State.setOperands_of_not_hasStack made]

end StackId

/-- A block pop of any size succeeds exactly if as many single pops do, yields the reverse of their values and leaves
what they leave. Pushed again in order its values restore the state. From a stack that is too short it takes nothing.
-/
theorem block_pop_agrees_with_single_pops (stack : StackId) (state : State) (count : Nat) :
    (∀ values after, stack.popMany count state = .ok values after ↔
      stack.popOneByOne count state = .ok values.reverse after) ∧
    (∀ values after, stack.popMany count state = .ok values after →
      values.length = count ∧ stack.pushInOrder values after = .ok () state) ∧
    (count ≤ (state.operands stack).length → ∃ values after, stack.popMany count state = .ok values after) ∧
    ((state.operands stack).length < count →
      (∃ failure, stack.popMany count state = .error failure state ∧ failure.kind = .stack) ∧
        stack.popOneByOne count state = .error .underflow (state.setOperands stack [])) := by
  refine ⟨fun values after => ?_, fun values after popped => ⟨?_, StackId.pushInOrder_of_popMany popped⟩,
    fun fits => ⟨_, _, StackId.popMany_of_fits fits⟩,
    fun short => ⟨⟨_, StackId.popMany_of_short short, rfl⟩, StackId.popOneByOne_of_short short⟩⟩
  · rw [StackId.popMany_eq_ok_iff, StackId.popOneByOne_eq_ok_iff, List.reverse_eq_iff]
  · obtain ⟨fits, rfl, -⟩ := StackId.popMany_eq_ok_iff.mp popped
    rw [List.length_reverse, List.length_take, Nat.min_eq_left fits]

def firstText : Value :=
  ⟨⟨0⟩, .text, .text "first", 1⟩

def secondText : Value :=
  ⟨⟨0⟩, .text, .text "second", 2⟩

def twoTexts : State :=
  { State.empty 1 with operandStacks := #[[secondText, firstText]] }

theorem block_pops_of_twoTexts :
    (StackId.popMany ⟨0⟩ 2 twoTexts = .ok [firstText, secondText] (twoTexts.setOperands ⟨0⟩ []) ∧
      StackId.pushInOrder ⟨0⟩ [firstText, secondText] (twoTexts.setOperands ⟨0⟩ []) = .ok () twoTexts) ∧
    StackId.popOneByOne ⟨0⟩ 3 twoTexts = .error .underflow (twoTexts.setOperands ⟨0⟩ []) := by
  obtain ⟨-, restored, -⟩ := block_pop_agrees_with_single_pops ⟨0⟩ twoTexts 2
  obtain ⟨-, -, -, short⟩ := block_pop_agrees_with_single_pops ⟨0⟩ twoTexts 3
  have popped : StackId.popMany ⟨0⟩ 2 twoTexts =
      .ok [firstText, secondText] (twoTexts.setOperands ⟨0⟩ []) := rfl
  exact ⟨⟨popped, (restored _ _ popped).2⟩, (short (by decide)).2⟩

end LazyStack
