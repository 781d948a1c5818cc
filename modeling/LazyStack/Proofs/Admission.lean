import LazyStack.Proofs.Run

/-!
What a call checks around a body. A call with a signature is admitted when the counts that it asks for
are the declared ones and its arguments are present; a rejected call fails at once and changes nothing.
After the body the call only reads the state.
-/

namespace LazyStack

def Signature.Accepts (signature : Signature) (args returns : Option Int) : Prop :=
  (∀ count, args = some count → count = signature.args) ∧
    ∀ count, returns = some count → count = signature.returns

/-- Whether a call gets as far as its body. -/
def Callable.Admits (target : Callable) (frame : Frame) (args returns : Option Int) (state : State) :
    Prop :=
  ∀ signature, target.signature? = some signature →
    signature.Accepts args returns ∧ signature.args ≤ ((state.operands frame.stack).length : Int)

/-- The size that a body with a signature has to leave on the stack. -/
def Callable.Settles (target : Callable) (frame : Frame) (state final : State) : Prop :=
  ∀ signature, target.signature? = some signature →
    ((final.operands frame.stack).length : Int) =
      (state.operands frame.stack).length - signature.args + signature.returns

theorem requireCount_of_eq {mismatch : Int → Int → Failure} {declared : Int} {requested : Option Int}
    (matched : ∀ count, requested = some count → count = declared) (state : State) :
    requireCount mismatch declared requested state = .ok () state := by
  cases requested with
  | none => rfl
  | some count =>
      rw [requireCount, if_pos (matched count rfl)]
      rfl

theorem requireCount_of_wrong (mismatch : Int → Int → Failure) {declared count : Int}
    (wrong : count ≠ declared) (state : State) :
    requireCount mismatch declared (some count) state = .error (mismatch declared count) state := by
  rw [requireCount, if_neg wrong]
  rfl

theorem requireCount_of_ne (mismatch : Int → Int → Failure) {declared : Int} {requested : Option Int}
    (unmatched : ¬ ∀ count, requested = some count → count = declared) (state : State) :
    ∃ count, requireCount mismatch declared requested state =
      .error (mismatch declared count) state := by
  cases requested with
  | none => exact absurd (fun count impossible => by cases impossible) unmatched
  | some count =>
      refine ⟨count, requireCount_of_wrong mismatch (fun same => unmatched ?_) state⟩
      rintro _ ⟨⟩
      exact same

theorem checkCounts_of_accepts {signature : Signature} {args returns : Option Int}
    (accepted : signature.Accepts args returns) (kind : String) (state : State) :
    checkCounts kind signature args returns state = .ok () state := by
  rw [checkCounts, Run.bind_of_ok (requireCount_of_eq accepted.1 state)]
  exact requireCount_of_eq accepted.2 state

theorem checkCounts_of_wrong_args {signature : Signature} {count : Int} (wrong : count ≠ signature.args)
    (kind : String) (returns : Option Int) (state : State) :
    checkCounts kind signature (some count) returns state =
      .error (.argumentCount kind signature.args count) state :=
  Run.bind_of_error (requireCount_of_wrong (.argumentCount kind) wrong state)

theorem checkCounts_of_wrong_returns {signature : Signature} {args : Option Int} {count : Int}
    (matched : ∀ requested, args = some requested → requested = signature.args)
    (wrong : count ≠ signature.returns) (kind : String) (state : State) :
    checkCounts kind signature args (some count) state =
      .error (.resultCount kind signature.returns count) state := by
  rw [checkCounts, Run.bind_of_ok (requireCount_of_eq matched state)]
  exact requireCount_of_wrong (.resultCount kind) wrong state

theorem checkCounts_of_not_accepts {signature : Signature} {args returns : Option Int}
    (refused : ¬ signature.Accepts args returns) (kind : String) (state : State) :
    ∃ failure, failure.kind = .arity ∧
      checkCounts kind signature args returns state = .error failure state := by
  rw [checkCounts]
  by_cases matched : ∀ count, args = some count → count = signature.args
  · rw [Run.bind_of_ok (requireCount_of_eq matched state)]
    obtain ⟨count, failed⟩ := requireCount_of_ne (.resultCount kind)
      (fun other => refused ⟨matched, other⟩) state
    exact ⟨_, rfl, failed⟩
  · obtain ⟨count, failed⟩ := requireCount_of_ne (.argumentCount kind) matched state
    exact ⟨_, rfl, Run.bind_of_error failed⟩

theorem requireOperands_apply (kind : String) (signature : Signature) (frame : Frame) (state : State) :
    requireOperands kind signature frame state =
      if ((state.operands frame.stack).length : Int) < signature.args then
        .error (.missingArguments kind signature.args (state.operands frame.stack).length) state
      else
        .ok (state.operands frame.stack).length state := by
  rw [requireOperands, Run.bind_of_ok (frame.stack.size_apply state)]
  by_cases short : ((state.operands frame.stack).length : Int) < signature.args
  · rw [if_pos short, if_pos short]
    rfl
  · rw [if_neg short, if_neg short]
    rfl

theorem checkCounts_eq_ok {kind : String} {signature : Signature} {args returns : Option Int}
    {state final : State} (checked : checkCounts kind signature args returns state = .ok () final) :
    signature.Accepts args returns ∧ final = state := by
  by_cases accepted : signature.Accepts args returns
  · cases (checkCounts_of_accepts accepted kind state).symm.trans checked
    exact ⟨accepted, rfl⟩
  · obtain ⟨failure, _, failed⟩ := checkCounts_of_not_accepts accepted kind state
    cases failed.symm.trans checked

theorem requireOperands_eq_ok {kind : String} {signature : Signature} {frame : Frame} {before : Nat}
    {state final : State} (counted : requireOperands kind signature frame state = .ok before final) :
    signature.args ≤ ((state.operands frame.stack).length : Int) ∧
      before = (state.operands frame.stack).length ∧ final = state := by
  rw [requireOperands_apply] at counted
  split at counted
  next => cases counted
  next present =>
    cases counted
    exact ⟨Int.not_lt.mp present, rfl, rfl⟩

theorem requireContract_apply (kind : String) (signature : Signature) (before : Nat) (frame : Frame)
    (state : State) :
    requireContract kind signature before frame state =
      if ((state.operands frame.stack).length : Int) = before - signature.args + signature.returns then
        .ok () state
      else
        .error (.brokenContract kind (before - signature.args + signature.returns)
          (state.operands frame.stack).length) state := by
  rw [requireContract, Run.bind_of_ok (frame.stack.size_apply state)]
  by_cases settled :
      ((state.operands frame.stack).length : Int) = before - signature.args + signature.returns
  · rw [if_pos settled, if_pos settled]
    rfl
  · rw [if_neg settled, if_neg settled]
    rfl

namespace Callable

variable {machine : Machine} {target : Callable} {frame : Frame} {args returns : Option Int}
  {state : State}

theorem admits_of_accepts {signature : Signature} (declared : target.signature? = some signature)
    (accepted : signature.Accepts args returns)
    (present : signature.args ≤ ((state.operands frame.stack).length : Int)) :
    target.Admits frame args returns state := by
  intro other same
  rw [declared] at same
  rw [← Option.some.inj same]
  exact ⟨accepted, present⟩

theorem admits_of_signatureless (free : target.signature? = none) :
    target.Admits frame args returns state := by
  intro signature declared
  rw [free] at declared
  cases declared

theorem callOnce_of_admits (admitted : target.Admits frame args returns state) :
    callOnce machine target frame args returns state =
      (target.runBody machine frame args returns >>= fun _ =>
        match target.signature? with
        | none => pure ()
        | some signature =>
            requireContract target.kind signature (state.operands frame.stack).length frame) state := by
  rw [callOnce]
  cases declared : target.signature? with
  | none =>
      dsimp only
      rw [Run.bind_apply]
      cases target.runBody machine frame args returns state <;> rfl
  | some signature =>
      obtain ⟨accepted, present⟩ := admitted signature declared
      dsimp only
      rw [Run.bind_of_ok (checkCounts_of_accepts accepted target.kind state)]
      have counted := requireOperands_apply target.kind signature frame state
      rw [if_neg (by omega)] at counted
      rw [Run.bind_of_ok counted]

theorem callOnce_of_short (machine : Machine) {signature : Signature}
    (declared : target.signature? = some signature) (accepted : signature.Accepts args returns)
    (short : ((state.operands frame.stack).length : Int) < signature.args) :
    callOnce machine target frame args returns state =
      .error (.missingArguments target.kind signature.args (state.operands frame.stack).length) state := by
  have failed := requireOperands_apply target.kind signature frame state
  rw [if_pos short] at failed
  rw [callOnce, declared]
  dsimp only
  rw [Run.bind_of_ok (checkCounts_of_accepts accepted target.kind state)]
  exact Run.bind_of_error failed

theorem callOnce_of_not_admits (rejected : ¬ target.Admits frame args returns state) :
    ∃ failure, ∀ machine : Machine,
      callOnce machine target frame args returns state = .error failure state := by
  cases declared : target.signature? with
  | none => exact absurd (admits_of_signatureless declared) rejected
  | some signature =>
      by_cases accepted : signature.Accepts args returns
      · have short : ((state.operands frame.stack).length : Int) < signature.args :=
          Int.not_le.mp fun present => rejected (admits_of_accepts declared accepted present)
        exact ⟨_, fun machine => callOnce_of_short machine declared accepted short⟩
      · obtain ⟨failure, _, failed⟩ := checkCounts_of_not_accepts accepted target.kind state
        refine ⟨failure, fun machine => ?_⟩
        rw [callOnce, declared]
        exact Run.bind_of_error failed

theorem callOnce_congr {first second : Machine}
    (same : target.Admits frame args returns state →
      target.runBody first frame args returns state = target.runBody second frame args returns state) :
    callOnce first target frame args returns state =
      callOnce second target frame args returns state := by
  by_cases admitted : target.Admits frame args returns state
  · rw [callOnce_of_admits admitted, callOnce_of_admits admitted, Run.bind_apply, Run.bind_apply,
      same admitted]
  · obtain ⟨failure, failed⟩ := callOnce_of_not_admits admitted
    rw [failed, failed]

theorem callOnce_of_not_accepts (machine : Machine) {signature : Signature}
    (declared : target.signature? = some signature) (refused : ¬ signature.Accepts args returns) :
    ∃ failure, failure.kind = .arity ∧
      callOnce machine target frame args returns state = .error failure state := by
  obtain ⟨failure, sort, failed⟩ := checkCounts_of_not_accepts refused target.kind state
  refine ⟨failure, sort, ?_⟩
  rw [callOnce, declared]
  exact Run.bind_of_error failed

theorem after_callOnce_of_admits (admitted : target.Admits frame args returns state) :
    (callOnce machine target frame args returns).after state =
      (target.runBody machine frame args returns).after state := by
  rw [Run.after, callOnce_of_admits admitted, Run.bind_apply, Run.after]
  cases target.runBody machine frame args returns state with
  | error failure middle => rfl
  | ok result middle =>
      cases target.signature? with
      | none => rfl
      | some signature =>
          dsimp only
          rw [requireContract_apply]
          split
          next ran => split at ran <;> cases ran; rfl
          next failed => split at failed <;> cases failed; rfl

theorem callOnce_eq_ok_iff {final : State} :
    callOnce machine target frame args returns state = .ok () final ↔
      target.Admits frame args returns state ∧
        target.runBody machine frame args returns state = .ok () final ∧
          target.Settles frame state final := by
  by_cases admitted : target.Admits frame args returns state
  · rw [callOnce_of_admits admitted, Run.bind_eq_ok]
    cases declared : target.signature? with
    | none =>
        constructor
        · rintro ⟨first, middle, ran, settled⟩
          cases settled
          exact ⟨admitted, ran, fun signature present => by rw [declared] at present; cases present⟩
        · rintro ⟨_, ran, _⟩
          exact ⟨(), final, ran, rfl⟩
    | some signature =>
        dsimp only
        constructor
        · rintro ⟨first, middle, ran, settled⟩
          rw [requireContract_apply] at settled
          split at settled
          next balanced =>
            cases settled
            refine ⟨admitted, ran, ?_⟩
            intro other present
            rw [declared] at present
            rw [← Option.some.inj present]
            exact balanced
          next => cases settled
        · rintro ⟨_, ran, settled⟩
          refine ⟨(), final, ran, ?_⟩
          rw [requireContract_apply, if_pos (settled signature declared)]
  · obtain ⟨failure, failed⟩ := callOnce_of_not_admits admitted
    rw [failed]
    constructor
    · intro impossible
      cases impossible
    · rintro ⟨present, _⟩
      exact absurd present admitted

theorem callOnce_eq_body (admitted : target.Admits frame args returns state)
    (settles : ∀ final, target.runBody machine frame args returns state = .ok () final →
      target.Settles frame state final) :
    callOnce machine target frame args returns state =
      target.runBody machine frame args returns state := by
  cases outcome : target.runBody machine frame args returns state with
  | ok result final => exact callOnce_eq_ok_iff.mpr ⟨admitted, outcome, settles final outcome⟩
  | error failure final => rw [callOnce_of_admits admitted, Run.bind_of_error outcome]

end Callable

end LazyStack
