import LazyStack.Proofs.ParameterList

/-!
What `closure` takes. It takes code on top of a value that lists names up to the null of its own domain, and makes
one closure of both. Whatever else it finds is an error of types: then no closure is made and nothing is logged, and
the operand below the topmost is gone only if the topmost was code.
-/

namespace LazyStack

variable {domain : DomainId} {frame : Frame} {state : State} {quoted list : Value} {rest : Operands}

theorem runMakeClosure_outcomes (registered : ((state.domain domain).names.get? .callable).isSome)
    (operands : state.operands frame.stack = quoted :: list :: rest) :
    (quoted.tag = .code ∧ list.ListsNames (state.domain domain).null ∧
      runMakeClosure domain frame state = .ok () (state.withClosure domain frame
        (if list.same (state.domain domain).null then [] else list.listedNames) quoted.payload.steps rest)) ∨
    (¬ (quoted.tag = .code ∧ list.ListsNames (state.domain domain).null) ∧
      ∃ part failure, (if quoted.tag = .code then part.Obstructs list else part = quoted) ∧
        failure.Refuses (state.valueText part) ∧ runMakeClosure domain frame state =
          .error failure (state.setOperands frame.stack (if quoted.tag = .code then rest else list :: rest))) := by
  have made : state.HasStack frame.stack := State.hasStack_of_operands (by simp [operands])
  by_cases code : quoted.tag = .code
  · rw [runMakeClosure_of_code operands code, if_pos code]
    simp only [if_pos code]
    rcases list.parameterNames_outcomes domain (state.setOperands frame.stack rest) with
      ⟨lists, read⟩ | ⟨others, part, failure, obstructs, refuses, refused⟩
    · refine .inl ⟨code, lists, ?_⟩
      have known : (((state.setOperands frame.stack rest).domain domain).names.get? .callable).isSome := registered
      rw [Run.bind_of_ok read, pushClosure_apply known, State.operands_setOperands_self made, State.withClosure,
        State.setOperands_setOperands]
      rfl
    · have words : (state.setOperands frame.stack rest).valueText = state.valueText :=
        State.valueText_of_same rfl rfl
      exact .inr ⟨fun both => others both.2, part, failure, obstructs, words ▸ refuses, Run.bind_of_error refused⟩
  · obtain ⟨failure, refuses, refused⟩ := runMakeClosure_of_ne_code domain operands code
    simp only [if_neg code]
    exact .inr ⟨fun both => code both.1, quoted, failure, rfl, refuses, refused⟩

end LazyStack
