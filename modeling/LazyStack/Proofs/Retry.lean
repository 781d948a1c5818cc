import LazyStack.Proofs.Library
import LazyStack.Proofs.OwnStack
import LazyStack.Proofs.Reentry

/-!
Calls of promises that fail. A promise changes only when a body of it completes. So a call that fails, and
in which no promise is called with success from within its own body, leaves its promise to be run again and
changes no promise but those whose bodies have completed.
-/

namespace LazyStack

namespace Moment

section Records

variable {id : PromiseId} {whole moment : Moment} {before after : State}

theorem Makes.promise_same (made : moment.Makes before after) (present : id.index < before.promises.size) :
    id.index < after.promises.size ∧ (after.promise id = before.promise id ∨
      moment.Completes id ∧ (after.promise id).value.isSome) := by
  cases made with
  | marks => exact ⟨present, .inl rfl⟩
  | promises scope body =>
      rw [State.promise_push, if_neg (Nat.ne_of_lt present), Array.size_push]
      exact ⟨Nat.lt_succ_of_lt present, .inl rfl⟩
  | pushes => exact ⟨present, .inl rfl⟩
  | exchanges => exact ⟨present, .inl rfl⟩
  | enters enters =>
      rw [enters.opens.promises, enters.opens.promise]
      exact ⟨present, .inl rfl⟩
  | leaves => exact ⟨present, .inl rfl⟩
  | @resolves _ resolved value middle computes =>
      refine ⟨by simpa [State.resolve] using present, ?_⟩
      rcases before.promise_resolve_cases resolved id value with ⟨rfl, stored⟩ | unchanged
      · exact .inr ⟨⟨value, before, computes⟩, by rw [stored]; rfl⟩
      · exact .inl unchanged
  | acts direct ends =>
      cases direct.changes ends with
      | marks => exact ⟨present, .inl rfl⟩
      | operates => exact ⟨present, .inl rfl⟩
      | binds => exact ⟨present, .inl rfl⟩
      | rebinds => exact ⟨present, .inl rfl⟩
      | opens => exact ⟨present, .inl rfl⟩
      | newStack => exact ⟨present, .inl rfl⟩
      | delays =>
          rw [State.promise_push, if_neg (Nat.ne_of_lt present), Array.size_push]
          exact ⟨Nat.lt_succ_of_lt present, .inl rfl⟩

/-- A promise is as it was, unless a body of it has completed and it has a value. -/
theorem Leads.promise_same (leads : whole.Leads before after) (present : id.index < before.promises.size) :
    after.promise id = before.promise id ∨
      (∃ moment, whole.Reaches moment ∧ moment.Completes id) ∧ (after.promise id).value.isSome := by
  have effect : Subrelation whole.Effect fun before after => id.index < before.promises.size →
      id.index < after.promises.size ∧ (after.promise id = before.promise id ∨
        (∃ moment, whole.Reaches moment ∧ moment.Completes id) ∧ (after.promise id).value.isSome) := by
    rintro before after ⟨moment, reached, changed⟩ made
    obtain ⟨still, same | ⟨completes, stored⟩⟩ := changed.promise_same made
    · exact ⟨still, .inl same⟩
    · exact ⟨still, .inr ⟨⟨moment, reached, completes⟩, stored⟩⟩
  refine (leads.keeps effect (fun _ made => ⟨made, .inl rfl⟩) ?_ present).2
  intro first middle last earlier later made
  obtain ⟨made, before⟩ := earlier made
  obtain ⟨made, same | completed⟩ := later made
  · exact ⟨made, same ▸ before⟩
  · exact ⟨made, .inr completed⟩

end Records

def Returns (id : PromiseId) (moment : Moment) : Prop :=
  ∃ frame args returns final, moment.activity = .call (.promise id) frame args returns ∧
    moment.activity.run moment.budget moment.state = .ok () final

theorem Returns.body {id : PromiseId} {moment : Moment} (returned : moment.Returns id) :
    ∃ frame args returns final, moment.Starts ⟨moment.budget, .body (.promise id) frame args returns,
        moment.state⟩ ∧
      Callable.runBody (.within moment.budget) frame args returns (.promise id) moment.state =
        .ok () final ∧ moment.after = final := by
  obtain ⟨budget, activity, state⟩ := moment
  obtain ⟨frame, args, returns, final, same, ran⟩ := returned
  dsimp only at same
  subst same
  have ends : after ⟨budget, .call (.promise id) frame args returns, state⟩ = final := Run.after_of_ok ran
  rw [Activity.run, Callable.callWithin_eq, Callable.callOnce_eq_ok_iff] at ran
  obtain ⟨admitted, body, _⟩ := ran
  exact ⟨frame, args, returns, final, .body admitted, body, ends⟩

theorem Returns.present {id : PromiseId} {moment : Moment} (returned : moment.Returns id) :
    (moment.after.promise id).value.isSome := by
  obtain ⟨frame, args, returns, final, starts, ran, ends⟩ := returned.body
  obtain ⟨value, before, _, held | ⟨middle, computes⟩⟩ := body_promise_ran ran
  · exact moment.leads.keeps_present (by rw [held]; rfl)
  · have completes : Completes id
        ⟨moment.budget, .body (.promise id) frame args returns, moment.state⟩ := ⟨value, middle, computes⟩
    have halted : Moment.after ⟨moment.budget, .body (.promise id) frame args returns, moment.state⟩ =
        final := Run.after_of_ok ran
    rw [ends, ← halted]
    exact completes.present

/-- In a course, a call of a promise ends well while a body of that promise is running around it. -/
def Reenters (whole : Moment) : Prop :=
  ∃ id outer part inner frame args returns, whole.Reaches outer ∧
    outer.activity = .body (.promise id) frame args returns ∧ outer.Starts part ∧ part.Reaches inner ∧
    inner.Returns id

theorem Reaches.body_called {whole : Moment} {budget : Nat} {target : Callable} {frame : Frame}
    {args returns : Option Int} {state : State}
    (reached : whole.Reaches ⟨budget, .body target frame args returns, state⟩) :
    whole = ⟨budget, .body target frame args returns, state⟩ ∨
      whole.Reaches ⟨budget, .call target frame args returns, state⟩ ∧
        target.Admits frame args returns state := by
  generalize same : (⟨budget, .body target frame args returns, state⟩ : Moment) = inner at reached
  induction reached with
  | here => exact .inl rfl
  | inside starts _ ih =>
      refine .inr ?_
      rcases ih same with begun | ⟨called, admitted⟩
      · subst begun
        cases same
        cases starts with
        | body admitted => exact ⟨.here _, admitted⟩
      · exact ⟨.inside starts called, admitted⟩

section Failing

variable {id : PromiseId} {whole outer part inner moment : Moment}

theorem Completes.returns (settles : whole.PromisesSettle) {budget : Nat} {frame : Frame}
    {args returns : Option Int} {state : State}
    (reached : whole.Reaches ⟨budget, .body (.promise id) frame args returns, state⟩)
    (completes : Completes id ⟨budget, .body (.promise id) frame args returns, state⟩)
    (admitted : (Callable.promise id).Admits frame args returns state) :
    Returns id ⟨budget, .call (.promise id) frame args returns, state⟩ := by
  obtain ⟨value, middle, computes⟩ := completes
  obtain ⟨_, _, _, before, same, ran, _⟩ := computes.runs
  cases same
  have returned := Callable.callOnce_eq_ok_iff.mpr ⟨admitted, ran, settles reached ran⟩
  rw [← Callable.callWithin_eq] at returned
  exact ⟨frame, args, returns, _, rfl, returned⟩

theorem quiet_inside (apart : ¬ whole.Reenters) (settles : whole.PromisesSettle)
    (reached : whole.Reaches outer) {frame : Frame} {args returns : Option Int}
    (running : outer.activity = .body (.promise id) frame args returns) (starts : outer.Starts part)
    (deeper : part.Reaches inner) : ¬ inner.Completes id := by
  intro completes
  obtain ⟨value, middle, computes⟩ := completes
  obtain ⟨nested, _, _, _, same, _⟩ := computes.runs
  obtain ⟨budget, activity, state⟩ := inner
  dsimp only at same
  subst same
  rcases deeper.body_called with begun | ⟨called, admitted⟩
  · subst begun
    cases starts with
    | body => cases running
  · have comesUp := reached.trans (.inside starts deeper)
    exact apart ⟨id, outer, part, _, _, _, _, reached, running, starts, called,
      Completes.returns settles comesUp ⟨value, middle, computes⟩ admitted⟩

theorem Computes.outermost {value : Value} {middle : State} (apart : ¬ whole.Reenters)
    (settles : whole.PromisesSettle) (computes : inner.Computes id value middle) :
    Outermost id whole inner := by
  rintro outer part reached starts deeper ⟨_, _, again⟩
  obtain ⟨_, _, _, _, running, _⟩ := again.runs
  exact quiet_inside apart settles reached running starts deeper ⟨value, middle, computes⟩

variable {budget : Nat} {frame : Frame} {args returns : Option Int} {state final : State}
  {failure : Failure}

theorem quiet_of_struck (apart : ¬ whole.Reenters) (settles : whole.PromisesSettle)
    (reached : whole.Reaches outer) (running : outer.activity = .body (.promise id) frame args returns)
    (struck : outer.activity.run outer.budget outer.state = .error failure final)
    (deeper : outer.Reaches inner) : ¬ inner.Completes id := by
  cases deeper with
  | here =>
      rintro ⟨value, middle, computes⟩
      obtain ⟨_, _, _, _, _, ran, _⟩ := computes.runs
      cases struck.symm.trans ran
  | inside starts further => exact quiet_inside apart settles reached running starts further

theorem not_completes_of_struck (apart : ¬ whole.Reenters) (settles : whole.PromisesSettle)
    (reached : whole.Reaches outer) (running : outer.activity = .body (.promise id) frame args returns)
    (unresolved : (outer.state.promise id).value = none)
    (struck : outer.activity.run outer.budget outer.state = .error failure final)
    (ends : whole.after = final) (comesUp : whole.Reaches moment) : ¬ moment.Completes id := by
  intro completes
  have halted : outer.after = final := Run.after_of_error struck
  have absent : (final.promise id).value = none := by
    rw [← halted, outer.leads.keeps_value fun _ => quiet_of_struck apart settles reached running struck,
      unresolved]
  have present := comesUp.leads_from.keeps_present completes.present
  rw [ends, absent] at present
  cases present

theorem quiet_of_failed
    (failed : Callable.callWithin budget (.promise id) frame args returns state = .error failure final)
    (apart : ¬ Reenters ⟨budget, .call (.promise id) frame args returns, state⟩)
    (settles : PromisesSettle ⟨budget, .call (.promise id) frame args returns, state⟩)
    (reached : Reaches ⟨budget, .call (.promise id) frame args returns, state⟩ moment) :
    ¬ moment.Completes id := by
  intro completes
  cases reached with
  | here =>
      obtain ⟨_, _, computes⟩ := completes
      obtain ⟨_, _, _, _, same, _⟩ := computes.runs
      cases same
  | inside starts deeper =>
      have body := Reaches.inside starts (.here _)
      cases starts with
      | body admitted =>
          cases deeper with
          | here =>
              obtain ⟨_, _, _, _, _, returned⟩ := completes.returns settles body admitted
              cases failed.symm.trans returned
          | inside starts further => exact quiet_inside apart settles body rfl starts further completes

theorem pending_call_runs_body (pending : (state.promise id).value = none)
    (accepted : Signature.Accepts ⟨0, 1⟩ args returns) (shallow : frame.depth + 1 ≤ (state.callLimit : Int)) :
    ∃ inner start,
      Reaches ⟨budget + 1, .call (.promise id) frame args returns, state⟩
        ⟨budget, .steps inner ((state.promise id).body.getD []), start⟩ ∧
      state.Opens ⟨[], (state.promise id).scope⟩ inner start ∧ start.operands inner.stack = [] := by
  have admitted : (Callable.promise id).Admits frame args returns state :=
    Callable.admits_of_accepts rfl accepted (Int.natCast_nonneg _)
  have entered := enterPromise_apply (state.promise id).scope frame state
  rw [if_neg (Int.not_lt.mpr shallow)] at entered
  exact ⟨_, _, .inside (.body admitted) (.inside (.promise pending entered) (.here _)),
    enterPromise_opens entered, (enterPromise_starts_empty entered).2⟩

theorem failed_keeps_operands (pending : (state.promise id).value = none)
    (failed : Callable.callWithin budget (.promise id) frame args returns state = .error failure final)
    (onStack : HostsOnStack ⟨budget, .call (.promise id) frame args returns, state⟩)
    (made : state.HasStack frame.stack) : final.operands frame.stack = state.operands frame.stack := by
  have settles := onStack.promisesSettle made
  rw [Callable.callWithin_eq] at failed
  by_cases admitted : (Callable.promise id).Admits frame args returns state
  · have starts : Starts ⟨budget, .call (.promise id) frame args returns, state⟩
        ⟨budget, .body (.promise id) frame args returns, state⟩ := .body admitted
    have ends := @Callable.after_callOnce_of_admits (.within budget) _ _ _ _ _ admitted
    have kept := compute_keeps_operands (onStack.part starts) pending made
    rw [Run.after_of_error failed, Callable.runBody, Run.after, runPromise_of_pending pending] at ends
    cases outcome : (state.promise id).compute (.within budget) frame state with
    | error other middle =>
        rw [Run.bind_of_error outcome] at ends
        rw [Run.after_of_error outcome] at kept
        rw [ends, kept]
    | ok value middle =>
        have ran := @runPromise_of_pending (.within budget) _ frame _ pending
        rw [Run.bind_of_ok outcome] at ran
        have settled := settles (.inside starts (.here _)) ran
        cases failed.symm.trans (Callable.callOnce_eq_ok_iff.mpr ⟨admitted, ran, settled⟩)
  · obtain ⟨other, rejected⟩ := Callable.callOnce_of_not_admits admitted
    cases failed.symm.trans (rejected _)
    rfl

end Failing

end Moment

/-- A call of a promise fails in whose course no call of a promise ends well within a running body of that promise.
Then each body that has completed has given its promise its value, and all other promises are as before, this one too
unless a host has written the stack of its caller; then its next call begins the body anew. -/
theorem failed_promise_call_loses_nothing {budget : Nat} {id : PromiseId} {frame : Frame}
    {args returns : Option Int} {state final : State} {failure : Failure}
    (made : id.index < state.promises.size) (pending : (state.promise id).value = none)
    (failed : Callable.callWithin budget (.promise id) frame args returns state = .error failure final)
    (apart : ¬ Moment.Reenters ⟨budget, .call (.promise id) frame args returns, state⟩) :
    let whole : Moment := ⟨budget, .call (.promise id) frame args returns, state⟩
    (∀ other : PromiseId, other.index < state.promises.size →
      (∀ moment, whole.Reaches moment → ¬ moment.Completes other) →
      final.promise other = state.promise other) ∧
    (whole.PromisesSettle →
      final.promise id = state.promise id ∧
      (∀ (later : State) (again : Nat) (caller : Frame) (asked wanted : Option Int),
        later.promise id = final.promise id → Signature.Accepts ⟨0, 1⟩ asked wanted →
        caller.depth + 1 ≤ (later.callLimit : Int) →
        ∃ inner start,
          Moment.Reaches ⟨again + 1, .call (.promise id) caller asked wanted, later⟩
            ⟨again, .steps inner ((state.promise id).body.getD []), start⟩ ∧
          later.Opens ⟨[], (state.promise id).scope⟩ inner start ∧ start.operands inner.stack = []) ∧
      (∀ other moment value middle, whole.Reaches moment → moment.Computes other value middle →
        (final.promise other).value = some value) ∧
      ∀ (other : PromiseId) struck inner asked wanted, other.index < state.promises.size →
        whole.Reaches struck → struck.activity = .body (.promise other) inner asked wanted →
        (struck.state.promise other).value = none →
        struck.activity.run struck.budget struck.state = .error failure final →
        final.promise other = state.promise other) ∧
    (whole.HostsOnStack → state.HasStack frame.stack →
      whole.PromisesSettle ∧ final.operands frame.stack = state.operands frame.stack) := by
  intro whole
  have ends : whole.after = final := Run.after_of_error failed
  have kept (other : PromiseId) (present : other.index < state.promises.size)
      (quiet : ∀ moment, whole.Reaches moment → ¬ moment.Completes other) :
      final.promise other = state.promise other := by
    rw [← ends]
    rcases whole.leads.promise_same present with same | ⟨⟨moment, reached, completes⟩, _⟩
    · exact same
    · exact absurd completes (quiet moment reached)
  refine ⟨kept, fun settles => ?_, fun onStack standing => ?_⟩
  · have quiet (moment : Moment) (reached : whole.Reaches moment) : ¬ moment.Completes id :=
      Moment.quiet_of_failed failed apart settles reached
    have same : final.promise id = state.promise id := kept id made quiet
    refine ⟨same, ?_, ?_, ?_⟩
    · intro later again caller asked wanted still accepted shallow
      rw [same] at still
      rw [← still] at pending ⊢
      exact Moment.pending_call_runs_body pending accepted shallow
    · intro other moment value middle reached computes
      rw [← ends]
      exact reached.keeps_value (computes.outermost apart settles) computes.stored
    · intro other struck inner asked wanted present reached running unresolved struckDown
      exact kept other present fun moment comesUp =>
        Moment.not_completes_of_struck apart settles reached running unresolved struckDown ends comesUp
  · have settles := onStack.promisesSettle standing
    exact ⟨settles, Moment.failed_keeps_operands pending failed onStack standing⟩

def failing : State :=
  { State.empty 125 with
    scopes := #[⟨[("other", .callable (.promise ⟨1⟩))], none⟩]
    operandStacks := #[[numbered 5]]
    promises := #[.pending ⟨0⟩ [.call "other" (some 0) (some 1), .get "missing"],
      .pending ⟨0⟩ [.push (numbered 1)]] }

def failingCall : Moment :=
  ⟨9, .call (.promise ⟨0⟩) ⟨⟨0⟩, ⟨0⟩, 0⟩ (some 0) (some 1), failing⟩

theorem failingCall_not_reenters : ¬ failingCall.Reenters := by
  rintro ⟨id, outer, part, inner, frame, args, returns, reached, running, starts, deeper, returned⟩
  have comesUp := reached.trans (.inside starts deeper)
  have present := comesUp.leads_from.keeps_present returned.present
  obtain ⟨index⟩ := id
  match index with
  | 0 => cases present
  | 1 =>
      cases starts with
      | promise pending entered =>
          cases running
          obtain ⟨_, _, _, _, body, _⟩ := returned.body
          have made : (⟨1⟩ : PromiseId).index < failing.promises.size := by decide
          rcases reached.leads_to.promise_same made with same | ⟨_, stored⟩
          · rw [same] at deeper
            exact Moment.body_ne_of_push (deeper.trans (.inside body (.here _))) rfl
          · rw [pending] at stored
            cases stored
      | _ => cases running
  | index + 2 =>
      have absent : failingCall.after.promises.size ≤ index + 2 := Nat.le_add_left 2 index
      rw [State.promise_of_size_le absent] at present
      cases present

theorem failed_promise_call_loses_nothing_of_others :
    ∃ final : State, Callable.callWithin 9 (.promise ⟨0⟩) ⟨⟨0⟩, ⟨0⟩, 0⟩ (some 0) (some 1) failing =
        .error (.unboundLookup "missing") final ∧
      final.promise ⟨0⟩ = failing.promise ⟨0⟩ ∧ (final.promise ⟨1⟩).value = some (numbered 1) ∧
      final.operands ⟨0⟩ = [numbered 5] := by
  have failed : Callable.callWithin 9 (.promise ⟨0⟩) ⟨⟨0⟩, ⟨0⟩, 0⟩ (some 0) (some 1) failing =
      .error (.unboundLookup "missing") failingCall.after := rfl
  obtain ⟨_, settled, onStack⟩ := failed_promise_call_loses_nothing (by decide) rfl failed
    failingCall_not_reenters
  have hostless : failingCall.HostsOnStack :=
    Moment.hostsObey_of_library fun body member => absurd member (Array.not_mem_empty body)
  obtain ⟨settles, operands⟩ := onStack hostless (by decide)
  have same := (settled settles).1
  have stored : (failingCall.after.promise ⟨1⟩).value = some (numbered 1) := rfl
  exact ⟨failingCall.after, failed, same, stored, operands⟩

/-- A host that writes a stack which is not that of its frame. -/
def meddlingBody : HostBody := fun frame _ _ =>
  .act (.push ⟨0⟩ (numbered 1)) fun _ => .act (.push frame.stack (numbered 2)) .done

def meddler : Callable :=
  .host ⟨0⟩ ⟨"meddle", some ⟨0, 1⟩⟩

def meddled : State :=
  { State.empty 125 with
    scopes := #[⟨[("meddle", .callable meddler)], none⟩]
    operandStacks := #[[]]
    promises := #[.pending ⟨0⟩ [.get "meddle"]]
    hosts := #[meddlingBody]
    hostMemories := #[.empty] }

def meddledCall : Moment :=
  ⟨9, .call (.promise ⟨0⟩) ⟨⟨0⟩, ⟨0⟩, 0⟩ (some 0) (some 1), meddled⟩

namespace Moment

/-- Nothing is called but the host, and no code is left after the call. -/
def Meddles : Moment → Prop
  | ⟨_, .call target _ _ _, _⟩ => target = meddler
  | ⟨_, .body target _ _ _, _⟩ => target = meddler
  | ⟨_, .step frame step, state⟩ =>
      step = .get "meddle" ∧ state.lookup? frame.scope "meddle" = some (.callable meddler)
  | ⟨_, .steps frame code, state⟩ =>
      code = [] ∨ code = [.get "meddle"] ∧ state.lookup? frame.scope "meddle" = some (.callable meddler)
  | ⟨_, .program _, _⟩ => True
  | ⟨_, .action _, _⟩ => True

theorem Meddles.part {whole part : Moment} (keeps : whole.Keeps fun action _ => action.Direct)
    (meddles : whole.Meddles) (starts : whole.Starts part) : part.Meddles := by
  cases starts with
  | body => exact meddles
  | closure | promise | force => cases meddles
  | got bound =>
      obtain ⟨same, found⟩ := meddles
      cases same
      exact Binding.callable.inj (Option.some.inj (bound.symm.trans found))
  | named => cases meddles.1
  | first =>
      obtain none | ⟨same, found⟩ := meddles
      · cases none
      · cases same
        exact ⟨rfl, found⟩
  | rest =>
      obtain none | ⟨same, -⟩ := meddles
      · cases none
      · cases same
        exact .inl rfl
  | asked | ran =>
      obtain ⟨-, -, direct⟩ := keeps.minds
      cases direct
  | host | acts | attempts | next | goesOn => trivial

theorem Meddles.inside {whole inner : Moment} (keeps : whole.Keeps fun action _ => action.Direct)
    (meddles : whole.Meddles) (reached : whole.Reaches inner) : inner.Meddles := by
  induction reached with
  | here => exact meddles
  | inside starts _ ih => exact ih (keeps.part starts) (meddles.part keeps starts)

end Moment

theorem meddledCall_keeps : meddledCall.Keeps fun action _ => action.Direct where
  hosts := Moment.hostsObey_of_hosts fun body member frame args returns budget state => by
    obtain rfl : body = meddlingBody := by simpa [meddledCall, meddled] using member
    exact ⟨rfl, fun _ _ _ => ⟨rfl, fun _ _ _ => trivial⟩⟩
  minds := trivial

theorem meddledCall_not_reenters : ¬ meddledCall.Reenters := by
  rintro ⟨id, outer, part, inner, frame, args, returns, reached, running, starts, deeper, _, _, _, _, calls, _⟩
  cases reached with
  | here => cases running
  | inside admitted within =>
      have keeps := meddledCall_keeps.part admitted
      cases admitted
      cases within.trans (.inside starts deeper) with
      | here => cases calls
      | inside entered further =>
          have same := keeps.part entered
          cases entered with
          | promise pending entered =>
              rw [enterPromise_apply, if_neg (by decide)] at entered
              cases entered
              have meddles := Moment.Meddles.inside same (.inr ⟨rfl, rfl⟩) further
              obtain ⟨budget, activity, state⟩ := inner
              dsimp only at calls
              subst calls
              cases meddles

/-- A call of a promise fails after it has stored, since a host has written the stack of its caller. -/
theorem meddled_promise_resolved_by_failed_call :
    (Callable.callWithin 9 (.promise ⟨0⟩) ⟨⟨0⟩, ⟨0⟩, 0⟩ (some 0) (some 1)).failure? meddled =
        some (.brokenContract "Promise" 1 2) ∧
      ¬ meddledCall.Reenters ∧ (meddled.promise ⟨0⟩).value = none ∧
      (meddledCall.after.promise ⟨0⟩).value.isSome :=
  ⟨by decide +kernel, meddledCall_not_reenters, rfl, by decide +kernel⟩

end LazyStack
