import LazyStack.Proofs.Growth
import LazyStack.Proofs.Order

/-!
Promises that their own bodies call again. The test for a value comes before the body and the storing after
it, so each invocation that finds none stores what it computes, even where one within it has stored a
value meanwhile. Of two invocations that complete one lies within the other, and the value that stays is
that of the outermost. A promise whose completing invocation holds no other gets its value only once.
-/

namespace LazyStack

namespace Moment

def Completes (id : PromiseId) (moment : Moment) : Prop :=
  ∃ value middle, moment.Computes id value middle

section Computes

variable {id : PromiseId} {moment : Moment} {value : Value} {middle : State}

theorem Computes.pending_before (computes : moment.Computes id value middle) :
    (moment.state.promise id).value = none := by
  cases computes with
  | pending pending _ => exact pending

-- A promise that has not been made yet reads as one with an empty body, which leaves no result.
theorem compute_ne_ok_of_size_le {budget : Nat} {frame : Frame} {state : State}
    (unmade : state.promises.size ≤ id.index) :
    (state.promise id).compute (.within budget) frame state ≠ .ok value middle := by
  intro computed
  rw [State.promise_of_size_le unmade, Promise.compute] at computed
  obtain ⟨inner, start, entered, rest⟩ := Run.bind_eq_ok.mp computed
  obtain ⟨_, reached, ran, last⟩ := Run.bind_eq_ok.mp rest
  cases budget with
  | zero => cases ran
  | succ smaller =>
      cases ran
      have empty := (enterPromise_starts_empty entered).2
      rw [soleResult_of_ne_one (by simp [empty])] at last
      cases last

theorem Computes.made (computes : moment.Computes id value middle) :
    id.index < moment.state.promises.size := by
  cases computes with
  | pending _ computed => exact Nat.lt_of_not_le fun unmade => compute_ne_ok_of_size_le unmade computed

theorem Computes.runs (computes : moment.Computes id value middle) :
    ∃ frame args returns, ∃ before : State,
      moment.activity = .body (.promise id) frame args returns ∧
      moment.activity.run moment.budget moment.state =
        .ok () (before.setOperands frame.stack (value :: before.operands frame.stack)) ∧
      before.promises = (middle.resolve id value).promises := by
  cases computes with
  | pending pending computed =>
      let stored := middle.resolve id value
      refine ⟨_, _, _, stored.record (.promiseResolved id (stored.valueText value)), rfl, ?_, rfl⟩
      rw [Activity.run, Callable.runBody, runPromise_of_pending pending, Run.bind_of_ok computed]
      rfl

theorem Computes.stored (computes : moment.Computes id value middle) :
    (moment.after.promise id).value = some value := by
  obtain ⟨frame, args, returns, before, _, ran, same⟩ := computes.runs
  have grown := (State.Grows.after moment).promises
  rw [after, Run.after_of_ok ran] at grown ⊢
  have made : id.index < middle.promises.size := by
    refine Nat.lt_of_lt_of_le computes.made (Nat.le_trans grown ?_)
    simp [State.setOperands, same, State.resolve]
  have stored := State.promise_resolve middle id value id
  rw [if_pos ⟨rfl, made⟩, State.promise, ← same] at stored
  rw [State.promise, State.setOperands, stored, Promise.resolved]

theorem body_promise_ran {budget : Nat} {frame : Frame} {args returns : Option Int} {state final : State}
    (ran : Callable.runBody (.within budget) frame args returns (.promise id) state = .ok () final) :
    ∃ value, ∃ before : State,
      final = before.setOperands frame.stack (value :: before.operands frame.stack) ∧
      ((state.promise id).value = some value ∨
        ∃ middle, Computes id ⟨budget, .body (.promise id) frame args returns, state⟩ value middle) := by
  cases present : (state.promise id).value with
  | some value =>
      rw [Callable.runBody, runPromise_of_value present] at ran
      cases ran
      exact ⟨value, state, rfl, .inl rfl⟩
  | none =>
      have whole := ran
      rw [Callable.runBody, runPromise_of_pending present] at whole
      obtain ⟨value, middle, computed, _⟩ := Run.bind_eq_ok.mp whole
      have computes : Computes id ⟨budget, .body (.promise id) frame args returns, state⟩ value middle :=
        .pending present computed
      obtain ⟨_, _, _, before, same, ends, _⟩ := computes.runs
      cases same
      cases ran.symm.trans ends
      exact ⟨value, before, rfl, .inr ⟨middle, computes⟩⟩

end Computes

section Course

variable {id : PromiseId} {whole part moment first second : Moment} {before after : State}

theorem Makes.promise_value (made : moment.Makes before after) (id : PromiseId) :
    (after.promise id).value = (before.promise id).value ∨
      ∃ value middle, moment.Computes id value middle ∧ (after.promise id).value = some value := by
  cases made with
  | marks => exact .inl rfl
  | promises => exact .inl (before.promise_value_push _ _ id)
  | pushes => exact .inl rfl
  | exchanges => exact .inl rfl
  | enters enters => exact .inl (by rw [enters.opens.promise])
  | leaves => exact .inl rfl
  | @resolves _ resolved value middle computes =>
      rcases before.promise_resolve_cases resolved id value with ⟨rfl, stored⟩ | unchanged
      · exact .inr ⟨value, before, computes, by rw [stored]; rfl⟩
      · exact .inl (by rw [unchanged])
  | acts direct ends =>
      cases direct.changes ends with
      | marks => exact .inl rfl
      | operates => exact .inl rfl
      | binds => exact .inl rfl
      | rebinds => exact .inl rfl
      | opens => exact .inl rfl
      | newStack => exact .inl rfl
      | delays => exact .inl (before.promise_value_push _ _ id)

theorem Leads.keeps_present (leads : whole.Leads before after) :
    (before.promise id).value.isSome → (after.promise id).value.isSome := by
  have effect : Subrelation whole.Effect fun before after =>
      (before.promise id).value.isSome → (after.promise id).value.isSome := by
    rintro before after ⟨moment, _, made⟩ present
    rcases made.promise_value id with same | ⟨value, middle, _, stored⟩
    · rw [same]
      exact present
    · rw [stored]
      rfl
  exact leads.keeps effect (fun _ present => present) fun earlier later present => later (earlier present)

theorem Leads.keeps_value (quiet : ∀ moment, whole.Reaches moment → ¬ moment.Completes id)
    (leads : whole.Leads before after) : (after.promise id).value = (before.promise id).value := by
  have effect : Subrelation whole.Effect fun before after =>
      (after.promise id).value = (before.promise id).value := by
    rintro before after ⟨moment, reached, made⟩
    rcases made.promise_value id with same | ⟨value, middle, computes, _⟩
    · exact same
    · exact absurd ⟨value, middle, computes⟩ (quiet moment reached)
  exact leads.keeps effect (fun _ => rfl) fun earlier later => later.trans earlier

theorem quiet_of_present (present : (whole.state.promise id).value.isSome)
    (reached : whole.Reaches moment) :
    ¬ moment.Completes id := by
  rintro ⟨value, middle, computes⟩
  have still := reached.leads_to.keeps_present present
  rw [computes.pending_before] at still
  cases still

theorem Before.not_completes (past : whole.Before first second)
    (present : (first.after.promise id).value.isSome) : ¬ second.Completes id := by
  rintro ⟨value, middle, computes⟩
  have still := past.leads.keeps_present present
  rw [computes.pending_before] at still
  cases still

theorem Completes.present (completes : moment.Completes id) : (moment.after.promise id).value.isSome := by
  obtain ⟨value, middle, computes⟩ := completes
  rw [computes.stored]
  rfl

/-- Of two bodies of a promise that complete in one course, one comes up within the other. -/
theorem Completes.nested (reached : whole.Reaches first) (completes : first.Completes id)
    (other : whole.Reaches second) (again : second.Completes id) :
    first.Reaches second ∨ second.Reaches first := by
  rcases reached.ordered other with within | around | before | after
  · exact .inl within
  · exact .inr around
  · exact absurd again (before.not_completes completes.present)
  · exact absurd completes (after.not_completes again.present)

/-- A moment lies within no body of a promise that completes, other than itself. -/
def Outermost (id : PromiseId) (whole moment : Moment) : Prop :=
  ∀ outer part, whole.Reaches outer → outer.Starts part → part.Reaches moment → ¬ outer.Completes id

/-- No body of a promise completes within a moment, other than itself. -/
def Innermost (id : PromiseId) (moment : Moment) : Prop :=
  ∀ part inner, moment.Starts part → part.Reaches inner → ¬ inner.Completes id

theorem outermost_of_call {target : Callable} {budget : Nat} {frame : Frame} {args returns : Option Int}
    {state : State} :
    Outermost id ⟨budget, .call target frame args returns, state⟩ ⟨budget, .body target frame args returns, state⟩ := by
  rintro outer part comesUp starts back ⟨value, middle, completes⟩
  obtain ⟨_, _, _, _, same, _⟩ := completes.runs
  cases comesUp with
  | here => cases same
  | inside begins further =>
      cases begins with
      | body admitted => exact starts.not_reaches_back (back.trans further)

theorem Starts.keeps_value {value : Value} (starts : whole.Starts part) (failing : ¬ whole.Completes id)
    (held : (part.after.promise id).value = some value) :
    (whole.after.promise id).value = some value := by
  have own : Subrelation whole.Makes fun before after =>
      (before.promise id).value = some value → (after.promise id).value = some value := by
    intro before after made present
    rcases made.promise_value id with same | ⟨other, middle, computes, _⟩
    · rw [same, present]
    · exact absurd ⟨other, middle, computes⟩ failing
  have leads := starts.follows_out own fun inner begins => .single fun present => by
    have quiet (moment : Moment) (reached : inner.Reaches moment) : ¬ moment.Completes id :=
      quiet_of_present (by rw [present]; rfl) reached
    rw [inner.leads.keeps_value quiet, present]
  generalize whole.after = final at leads ⊢
  induction leads with
  | refl => exact held
  | tail _ changed ih => exact changed ih

theorem Reaches.keeps_value {value : Value} (reached : whole.Reaches moment)
    (outermost : Outermost id whole moment) (held : (moment.after.promise id).value = some value) :
    (whole.after.promise id).value = some value := by
  induction reached with
  | here => exact held
  | inside starts deeper ih =>
      refine starts.keeps_value (outermost _ _ (.here _) starts deeper) (ih ?_ held)
      exact fun outer part reached => outermost outer part (.inside starts reached)

theorem Before.keeps_value {value : Value} (past : whole.Before first second)
    (outermost : Outermost id whole first) (held : (first.after.promise id).value = some value) :
    (second.state.promise id).value = some value := by
  obtain ⟨earlier, later, ends, within, begins, comesUp, meet⟩ := past
  have stored : (later.state.promise id).value = some value := by
    rw [meet]
    exact within.keeps_value (fun outer part reached => outermost outer part (ends.trans reached)) held
  have quiet (moment : Moment) (reached : later.Reaches moment) : ¬ moment.Completes id :=
    quiet_of_present (by rw [stored]; rfl) reached
  rw [comesUp.leads_to.keeps_value quiet, stored]

theorem Innermost.pending_inside {value : Value} {middle : State} (innermost : Innermost id moment)
    (computes : moment.Computes id value middle) (starts : moment.Starts part)
    (reached : part.Reaches second) : (second.state.promise id).value = none := by
  have quiet (inner : Moment) (deeper : part.Reaches inner) : ¬ inner.Completes id :=
    innermost part inner starts deeper
  rw [reached.leads_to.keeps_value quiet]
  cases computes with
  | pending pending _ =>
      cases starts with
      | promise _ entered => rw [(enterPromise_opens entered).promise, pending]

theorem Computes.unique {value other : Value} {middle last : State}
    (computes : moment.Computes id value middle) (again : moment.Computes id other last) :
    value = other := by
  cases computes with
  | pending _ computed =>
      cases again with
      | pending _ recomputed =>
          cases computed.symm.trans recomputed
          rfl

theorem Computes.pushed {value pushed : Value} {middle : State}
    (computes : moment.Computes id value middle)
    (reached : whole.Reaches moment) (outermost : Outermost id whole moment)
    (innermost : Innermost id moment) (called : whole.Reaches second)
    (held : (second.state.promise id).value = some pushed ∨ ∃ last, second.Computes id pushed last) :
    pushed = value := by
  have atOnce (same : second = moment) : pushed = value := by
    subst same
    rcases held with present | ⟨last, again⟩
    · cases computes.pending_before.symm.trans present
    · exact again.unique computes
  rcases reached.ordered called with within | around | before | after
  · cases within with
    | here => exact atOnce rfl
    | inside starts deeper =>
        rcases held with present | ⟨last, again⟩
        · cases (innermost.pending_inside computes starts deeper).symm.trans present
        · exact absurd ⟨pushed, last, again⟩ (innermost _ _ starts deeper)
  · cases around with
    | here => exact atOnce rfl
    | inside starts deeper =>
        rcases held with present | ⟨last, again⟩
        · have quiet := quiet_of_present (by rw [present]; rfl) (.inside starts deeper)
          exact absurd ⟨value, middle, computes⟩ quiet
        · exact absurd ⟨pushed, last, again⟩ (outermost _ _ called starts deeper)
  · have stored := before.keeps_value outermost computes.stored
    rcases held with present | ⟨last, again⟩
    · exact Option.some.inj (present.symm.trans stored)
    · cases again.pending_before.symm.trans stored
  · refine absurd ⟨value, middle, computes⟩ (after.not_completes ?_)
    rcases held with present | ⟨last, again⟩
    · exact second.leads.keeps_present (by rw [present]; rfl)
    · exact Completes.present ⟨pushed, last, again⟩

theorem Computes.call_pushes {value : Value} {middle : State} (computes : moment.Computes id value middle)
    (reached : whole.Reaches moment) (outermost : Outermost id whole moment)
    (innermost : Innermost id moment) {budget : Nat} {frame : Frame} {args returns : Option Int}
    {state final : State}
    (called : whole.Reaches ⟨budget, .call (.promise id) frame args returns, state⟩)
    (ran : Callable.callWithin budget (.promise id) frame args returns state = .ok () final) :
    ∃ before : State, final = before.setOperands frame.stack (value :: before.operands frame.stack) := by
  rw [Callable.callWithin_eq, Callable.callOnce_eq_ok_iff] at ran
  obtain ⟨admitted, body, _⟩ := ran
  obtain ⟨pushed, before, ends, held⟩ := body_promise_ran body
  have bodyReached := called.trans (.inside (.body admitted) (.here _))
  refine ⟨before, ?_⟩
  rw [ends, computes.pushed reached outermost innermost bodyReached held]

end Course

end Moment

/-- Of the bodies of a promise that complete in one run, each two lie one within the other, and the value that the
outermost stores stays. If no other completes within it, every call of the promise that ends well pushes that value. -/
theorem promise_value_is_outermost (id : PromiseId) (whole : Moment) :
    (∀ first second, whole.Reaches first → first.Completes id → whole.Reaches second →
      second.Completes id → first.Reaches second ∨ second.Reaches first) ∧
    ∀ moment value middle, whole.Reaches moment → moment.Computes id value middle →
      Moment.Outermost id whole moment →
      (whole.after.promise id).value = some value ∧
      (∀ later, whole.Before moment later → (later.state.promise id).value = some value) ∧
      (Moment.Innermost id moment →
        (∀ other, whole.Reaches other → other.Completes id → other = moment) ∧
        ∀ budget frame args returns state final,
          whole.Reaches ⟨budget, .call (.promise id) frame args returns, state⟩ →
          Callable.callWithin budget (.promise id) frame args returns state = .ok () final →
          ∃ before : State,
            final = before.setOperands frame.stack (value :: before.operands frame.stack)) := by
  refine ⟨fun first second reached completes other again => completes.nested reached other again, ?_⟩
  intro moment value middle reached computes outermost
  refine ⟨reached.keeps_value outermost computes.stored,
    fun later past => past.keeps_value outermost computes.stored, fun innermost => ⟨?_, ?_⟩⟩
  · intro other comesUp completes
    rcases Moment.Completes.nested reached ⟨value, middle, computes⟩ comesUp completes with within | around
    · cases within with
      | here => rfl
      | inside starts deeper => exact absurd completes (innermost _ _ starts deeper)
    · cases around with
      | here => rfl
      | inside starts deeper => exact absurd completes (outermost _ _ comesUp starts deeper)
  · intro budget frame args returns state final called ran
    exact computes.call_pushes reached outermost innermost called ran

def numbered (number : Int) : Value :=
  ⟨⟨0⟩, .int, .int number, 0⟩

theorem Moment.body_ne_of_push {budget : Nat} {frame inner : Frame} {value : Value} {state : State}
    {moment : Moment} {target : Callable} {args returns : Option Int}
    (reached : Reaches ⟨budget, .steps frame [.push value], state⟩ moment) :
    moment.activity ≠ .body target inner args returns := by
  intro same
  cases reached with
  | here => cases same
  | inside starts deeper =>
      cases starts with
      | first =>
          cases deeper with
          | here => cases same
          | inside starts _ => cases starts
      | rest =>
          cases deeper with
          | here => cases same
          | inside starts _ => cases starts

def settling : Moment :=
  ⟨9, .call (.promise ⟨0⟩) ⟨⟨0⟩, ⟨0⟩, 0⟩ (some 0) (some 1),
    { State.empty 125 with
      scopes := #[⟨[], none⟩]
      operandStacks := #[[]]
      promises := #[.pending ⟨0⟩ [.push (numbered 1)]] }⟩

def settlingBody : Moment :=
  ⟨9, .body (.promise ⟨0⟩) ⟨⟨0⟩, ⟨0⟩, 0⟩ (some 0) (some 1), settling.state⟩

/-- A host that tries to call a promise again. It leaves one number where it may not, and another in the
place of what the promise leaves. -/
def callingAgain : HostBody := fun frame _ _ =>
  .attempt (.call (.promise ⟨0⟩) frame (some 0) (some 1)) fun
    | .error _ => .act (.push frame.stack (numbered 1)) .done
    | .ok _ => .act (.pop frame.stack) fun _ => .act (.push frame.stack (numbered 2)) .done

def reentrant : State :=
  { State.empty 2 with
    scopes := #[⟨[("again", .callable (.host ⟨0⟩ ⟨"Again", some ⟨0, 1⟩⟩))], none⟩]
    operandStacks := #[[]]
    promises := #[.pending ⟨0⟩ [.call "again" (some 0) (some 1)]]
    hosts := #[callingAgain]
    hostMemories := #[.empty] }

def reentered : Moment :=
  ⟨9, .call (.promise ⟨0⟩) ⟨⟨0⟩, ⟨0⟩, 0⟩ (some 0) (some 1), reentrant⟩

def reenteredBody : Moment :=
  ⟨9, .body (.promise ⟨0⟩) ⟨⟨0⟩, ⟨0⟩, 0⟩ (some 0) (some 1), reentrant⟩

theorem Moment.reentered_reaches :
    ∃ inner middle last, reentered.Reaches reenteredBody ∧ reenteredBody.Reaches inner ∧
      inner.Computes ⟨0⟩ (numbered 1) middle ∧ reenteredBody.Computes ⟨0⟩ (numbered 2) last := by
  have admitted {target : Callable} (declared : target.signature? = some ⟨0, 1⟩) (frame : Frame)
      (state : State) : target.Admits frame (some 0) (some 1) state := by
    intro signature same
    cases declared.symm.trans same
    exact ⟨by simp [Signature.Accepts], Int.natCast_nonneg _⟩
  exact ⟨_, _, _, .inside (.body (admitted rfl _ _)) (.here _), .inside (.promise rfl rfl)
    (.inside .first (.inside (.named rfl rfl) (.inside (.body (admitted rfl _ _)) (.inside .host
      (.inside .attempts (.inside .asked (.inside (.body (admitted rfl _ _)) (.here _)))))))),
    .pending rfl rfl, .pending rfl rfl⟩

theorem promise_value_is_outermost_when_reentered :
    (∃ inner middle, reenteredBody.Reaches inner ∧ inner.Computes ⟨0⟩ (numbered 1) middle ∧
      (reentered.after.promise ⟨0⟩).value = some (numbered 2)) ∧
    ∃ before : State, settling.after = before.setOperands ⟨0⟩ (numbered 1 :: before.operands ⟨0⟩) := by
  constructor
  · obtain ⟨inner, middle, last, reached, deeper, first, second⟩ := Moment.reentered_reaches
    obtain ⟨final, _⟩ := (promise_value_is_outermost ⟨0⟩ reentered).2 _ _ _ reached second Moment.outermost_of_call
    exact ⟨inner, middle, deeper, first, final⟩
  · have reached : settling.Reaches settlingBody := .inside (.body (Callable.admits_of_accepts rfl
      (by simp [Signature.Accepts]) (by decide))) (.here _)
    have computes : settlingBody.Computes ⟨0⟩ (numbered 1) _ := .pending rfl rfl
    have innermost : Moment.Innermost ⟨0⟩ settlingBody := by
      rintro part inner starts deeper ⟨value, middle, completes⟩
      obtain ⟨_, _, _, _, same, _⟩ := completes.runs
      cases starts with
      | promise pending entered => exact Moment.body_ne_of_push deeper same
    obtain ⟨_, _, pushes⟩ :=
      (promise_value_is_outermost ⟨0⟩ settling).2 _ _ _ reached computes Moment.outermost_of_call
    exact (pushes innermost).2 _ _ _ _ _ _ (.here settling) rfl

/-- The bodies of one promise, one within the other, store two values, and the last of them stays. -/
theorem reentered_promise_takes_two_values :
    ∃ outer inner last middle, reentered.Reaches outer ∧ outer.Reaches inner ∧
      inner.Computes ⟨0⟩ (numbered 1) middle ∧ outer.Computes ⟨0⟩ (numbered 2) last ∧
      (reentered.after.promise ⟨0⟩).value = some (numbered 2) ∧ numbered 1 ≠ numbered 2 := by
  obtain ⟨inner, middle, last, reached, deeper, first, second⟩ := Moment.reentered_reaches
  refine ⟨_, inner, last, middle, reached, deeper, first, second, rfl, ?_⟩
  intro same
  cases congrArg (fun value => value.payload.integer) same

end LazyStack
