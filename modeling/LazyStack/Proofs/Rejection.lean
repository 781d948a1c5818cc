import LazyStack.Proofs.Depth
import Mathlib.Tactic.ByContra

/-!
Rejected calls. A call of a closure or of a promise checks the counts asked for, then the operands, and then the
depth if a body has to run. The first check that is not passed decides the error before anything has changed, and
past all of them the body begins.
-/

namespace LazyStack

/-- The errors of a call that is rejected, in the order in which they win: two of counts, one of the stack and one of
depth. -/
inductive Callable.Refuses (target : Callable) (signature : Signature) (frame : Frame)
    (args returns : Option Int) (state : State) : Failure → Prop
  | arguments {count} :
      args = some count → count ≠ signature.args →
      Callable.Refuses target signature frame args returns state (.argumentCount target.kind signature.args count)
  | results {count} :
      (∀ requested, args = some requested → requested = signature.args) →
      returns = some count → count ≠ signature.returns →
      Callable.Refuses target signature frame args returns state (.resultCount target.kind signature.returns count)
  | operands :
      signature.Accepts args returns → ((state.operands frame.stack).length : Int) < signature.args →
      Callable.Refuses target signature frame args returns state
        (.missingArguments target.kind signature.args (state.operands frame.stack).length)
  | depth :
      signature.Accepts args returns → signature.args ≤ ((state.operands frame.stack).length : Int) →
      (target.body? state).isSome → (state.callLimit : Int) < frame.depth + 1 →
      Callable.Refuses target signature frame args returns state (.tooDeep state.callLimit)

/-- A moment that fails before any code has begun in it. -/
def Moment.FailsUnbegun (moment : Moment) (failure : Failure) (final : State) : Prop :=
  moment.activity.run moment.budget moment.state = .error failure final ∧
    ∀ inner, moment.Reaches inner → ∀ frame code, inner.activity ≠ .steps frame code

variable {target : Callable} {signature : Signature} {frame : Frame} {args returns : Option Int} {state : State}
  {failure : Failure} {parameters : List String} {captured : Option ScopeId}

theorem Callable.Captures.declared (captures : target.Captures state parameters captured) :
    target.signature? = some ⟨parameters.length, 1⟩ := by
  cases captures <;> rfl

theorem Callable.exists_refuses_iff :
    (∃ failure, target.Refuses signature frame args returns state failure) ↔
      (∃ count, args = some count ∧ count ≠ signature.args) ∨
        (∃ count, returns = some count ∧ count ≠ signature.returns) ∨
        ((state.operands frame.stack).length : Int) < signature.args ∨
        (target.body? state).isSome ∧ (state.callLimit : Int) < frame.depth + 1 := by
  constructor
  · rintro ⟨failure, refuses⟩
    cases refuses with
    | arguments given wrong => exact .inl ⟨_, given, wrong⟩
    | results _ given wrong => exact .inr (.inl ⟨_, given, wrong⟩)
    | operands _ short => exact .inr (.inr (.inl short))
    | depth _ _ deeper deep => exact .inr (.inr (.inr ⟨deeper, deep⟩))
  · intro faulty
    by_cases mistaken : ∃ count, args = some count ∧ count ≠ signature.args
    · obtain ⟨count, given, wrong⟩ := mistaken
      exact ⟨_, .arguments given wrong⟩
    have matched : ∀ count, args = some count → count = signature.args := by
      intro count given
      by_contra wrong
      exact mistaken ⟨count, given, wrong⟩
    by_cases mistaken : ∃ count, returns = some count ∧ count ≠ signature.returns
    · obtain ⟨count, given, wrong⟩ := mistaken
      exact ⟨_, .results matched given wrong⟩
    have accepted : signature.Accepts args returns := by
      refine ⟨matched, ?_⟩
      intro count given
      by_contra wrong
      exact mistaken ⟨count, given, wrong⟩
    by_cases short : ((state.operands frame.stack).length : Int) < signature.args
    · exact ⟨_, .operands accepted short⟩
    · rcases faulty with ⟨count, given, wrong⟩ | ⟨count, given, wrong⟩ | less | ⟨deeper, deep⟩
      · exact absurd (accepted.1 count given) wrong
      · exact absurd (accepted.2 count given) wrong
      · exact absurd less short
      · exact ⟨_, .depth accepted (Int.not_lt.mp short) deeper deep⟩

section Passes

variable (declared : target.signature? = some signature)
  (passes : ∀ failure, ¬ target.Refuses signature frame args returns state failure)
include declared passes

theorem Callable.admits_of_passes : target.Admits frame args returns state := by
  have faultless := not_exists.mpr passes
  rw [exists_refuses_iff] at faultless
  simp only [not_or, not_exists, not_and, ne_eq, not_not, Int.not_lt] at faultless
  obtain ⟨matched, counted, present, _⟩ := faultless
  exact admits_of_accepts declared ⟨matched, counted⟩ present

theorem Callable.shallow_of_passes {code : List Step} (deeper : target.body? state = some code) :
    frame.depth + 1 ≤ (state.callLimit : Int) := by
  obtain ⟨accepted, present⟩ := admits_of_passes declared passes _ declared
  by_contra deep
  exact passes _ (.depth accepted present (by simp [deeper]) (Int.not_le.mp deep))

end Passes

namespace Moment

theorem call_starts_nothing (rejected : ¬ target.Admits frame args returns state) {budget : Nat} {inner : Moment}
    (reached : Reaches ⟨budget, .call target frame args returns, state⟩ inner) :
    inner = ⟨budget, .call target frame args returns, state⟩ := by
  cases reached with
  | here => rfl
  | inside starts _ =>
      cases starts with
      | body admitted => exact absurd admitted rejected

theorem failsUnbegun_of_refuses (declared : target.signature? = some signature)
    (refuses : target.Refuses signature frame args returns state failure) (budget : Nat) :
    FailsUnbegun ⟨budget, .call target frame args returns, state⟩ failure state := by
  have unbegun (rejected : ¬ target.Admits frame args returns state)
      (failed : Callable.callOnce (.within budget) target frame args returns state = .error failure state) :
      FailsUnbegun ⟨budget, .call target frame args returns, state⟩ failure state := by
    constructor
    · rw [Activity.run, Callable.callWithin_eq]
      exact failed
    · intro inner reached frame code same
      rw [call_starts_nothing rejected reached] at same
      cases same
  cases refuses with
  | @arguments count given wrong =>
      refine unbegun (fun admitted => wrong ((admitted _ declared).1.1 count given)) ?_
      subst given
      rw [Callable.callOnce, declared]
      exact Run.bind_of_error (checkCounts_of_wrong_args wrong _ _ _)
  | @results count matched given wrong =>
      refine unbegun (fun admitted => wrong ((admitted _ declared).1.2 count given)) ?_
      subst given
      rw [Callable.callOnce, declared]
      exact Run.bind_of_error (checkCounts_of_wrong_returns matched wrong _ _)
  | operands accepted short =>
      refine unbegun (fun admitted => ?_) (Callable.callOnce_of_short _ declared accepted short)
      have present := (admitted _ declared).2
      omega
  | depth accepted present deeper deep =>
      obtain ⟨code, deeper⟩ := Option.isSome_iff_exists.mp deeper
      exact call_of_too_deep deeper (Callable.admits_of_accepts declared accepted present) deep budget

theorem not_failsUnbegun (captures : target.Captures state parameters captured) (made : state.HasStack frame.stack)
    (passes : ∀ failure, ¬ target.Refuses ⟨parameters.length, 1⟩ frame args returns state failure)
    (budget : Nat) {final : State} :
    ¬ FailsUnbegun ⟨budget + 1, .call target frame args returns, state⟩ failure final := by
  rintro ⟨failed, unbegun⟩
  have admitted := Callable.admits_of_passes captures.declared passes
  cases deeper : target.body? state with
  | some code =>
      have shallow := Callable.shallow_of_passes captures.declared passes deeper
      obtain ⟨_, _, -, -, begins⟩ := call_begins deeper admitted captures shallow budget
      exact unbegun _ (reaches_iff_under.mpr ⟨1, begins⟩) _ _ rfl
  | none =>
      cases captures with
      | closure => cases deeper
      | @promise id =>
          cases held : (state.promise id).value with
          | none =>
              rw [Callable.body?, held] at deeper
              cases deeper
          | some value =>
              obtain ⟨accepted, _⟩ := admitted _ rfl
              cases (run_call_of_value held accepted made).symm.trans failed

end Moment

/-- A call of a closure or a promise fails before its body begins exactly if it is refused: for its arguments, its
results, a stack too short or its depth, in this order. Then everything is as it was. Otherwise the body begins one
level deeper, on a new stack and in a new scope that binds the arguments. -/
theorem rejected_call_changes_nothing (budget : Nat) (target : Callable) (parameters : List String)
    (captured : Option ScopeId) (frame : Frame) (args returns : Option Int) (state : State)
    (captures : target.Captures state parameters captured) (made : state.HasStack frame.stack) :
    (∀ failure final, Moment.FailsUnbegun ⟨budget + 1, .call target frame args returns, state⟩ failure final ↔
        final = state ∧ target.Refuses ⟨parameters.length, 1⟩ frame args returns state failure) ∧
      ((∃ failure, target.Refuses ⟨parameters.length, 1⟩ frame args returns state failure) ↔
        (∃ count, args = some count ∧ count ≠ parameters.length) ∨
          (∃ count, returns = some count ∧ count ≠ 1) ∨
          ((state.operands frame.stack).length : Int) < parameters.length ∨
          (target.body? state).isSome ∧ (state.callLimit : Int) < frame.depth + 1) ∧
      (∀ code, target.body? state = some code →
        (∀ failure, ¬ target.Refuses ⟨parameters.length, 1⟩ frame args returns state failure) →
        ∃ arguments rest, state.operands frame.stack = arguments.reverse ++ rest ∧
          arguments.length = parameters.length ∧
          Moment.ReachesUnder ⟨budget + 1, .call target frame args returns, state⟩ 1
            ⟨budget, .steps (state.nextFrame (frame.depth + 1)) code,
              (state.setOperands frame.stack rest).opening (.ofArguments captured parameters arguments)⟩) ∧
      ∃ smaller, Callable.call target frame args returns state =
        (Activity.call target frame args returns).run (smaller + 1) state := by
  refine ⟨?_, Callable.exists_refuses_iff, ?_, ?_⟩
  · intro failure final
    constructor
    · rintro ⟨failed, unbegun⟩
      have refused : ∃ other, target.Refuses ⟨parameters.length, 1⟩ frame args returns state other := by
        by_contra passes
        exact Moment.not_failsUnbegun captures made (not_exists.mp passes) budget ⟨failed, unbegun⟩
      obtain ⟨other, refuses⟩ := refused
      cases (Moment.failsUnbegun_of_refuses captures.declared refuses (budget + 1)).1.symm.trans failed
      exact ⟨rfl, refuses⟩
    · rintro ⟨rfl, refuses⟩
      exact Moment.failsUnbegun_of_refuses captures.declared refuses (budget + 1)
  · intro code deeper passes
    have admitted := Callable.admits_of_passes captures.declared passes
    have shallow := Callable.shallow_of_passes captures.declared passes deeper
    exact Moment.call_begins deeper admitted captures shallow budget
  · refine ⟨callBudget state.callLimit frame.depth - 1, ?_⟩
    have positive : 0 < callBudget state.callLimit frame.depth := by
      simp only [callBudget, hostNesting]
      omega
    rw [Callable.call_apply, Nat.sub_add_cancel positive]

def keepFirst : Callable :=
  .closure ⟨0⟩ [.get "x"] ["x", "y"]

theorem rejected_call_of_keepFirst :
    Moment.FailsUnbegun ⟨1, .call keepFirst firstFrame (some 1) (some 3), looping 1⟩
        (.argumentCount "Closure" 2 1) (looping 1) ∧
      Moment.FailsUnbegun ⟨1, .call keepFirst firstFrame (some 2) none, (looping 1).setOperands ⟨0⟩ [seven]⟩
        (.missingArguments "Closure" 2 1) ((looping 1).setOperands ⟨0⟩ [seven]) := by
  obtain ⟨miscounted, -, -, -⟩ := rejected_call_changes_nothing 0 keepFirst ["x", "y"] (some ⟨0⟩) firstFrame
    (some 1) (some 3) (looping 1) .closure (by decide)
  obtain ⟨short, -, -, -⟩ := rejected_call_changes_nothing 0 keepFirst ["x", "y"] (some ⟨0⟩) firstFrame
    (some 2) none ((looping 1).setOperands ⟨0⟩ [seven]) .closure (by decide)
  constructor
  · exact (miscounted _ _).mpr ⟨rfl, .arguments rfl (by decide)⟩
  · exact (short _ _).mpr ⟨rfl, .operands (by simp [Signature.Accepts]) (by decide)⟩

end LazyStack
