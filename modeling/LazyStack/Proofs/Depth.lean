import LazyStack.Proofs.Correspondence
import LazyStack.Proofs.Memoization
import LazyStack.Proofs.Termination

/-!
Depth. A frame lies as many levels below the one on which a run started as there are bodies of closures
and promises at work between the two, and the limit bounds its depth. Where a body would lie one level too
deep, its call fails before it has changed anything.
-/

namespace LazyStack

def Activity.levels : Activity → Nat
  | .body (.closure _ _ _) _ _ _ => 1
  | .body (.promise _) _ _ _ => 1
  | _ => 0

def Callable.body? (state : State) : Callable → Option (List Step)
  | .closure _ code _ => some code
  | .promise id =>
      match (state.promise id).value with
      | none => some ((state.promise id).body.getD [])
      | some _ => none
  | _ => none

inductive Callable.Captures (state : State) : Callable → List String → Option ScopeId → Prop
  | closure {scope code parameters} :
      Callable.Captures state (.closure scope code parameters) parameters (some scope)
  | promise {id} : Callable.Captures state (.promise id) [] (state.promise id).scope

/-- A host has callables called and code run at the depth of its own frame. -/
def Action.AtDepth (frame : Frame) (action : Action) (_ : State) : Prop :=
  ∀ next, action.frame? = some next → next.depth = frame.depth

namespace Moment

/-- A moment that fails for its depth before it has changed anything, and runs no code. -/
def TooDeep (moment : Moment) : Prop :=
  moment.activity.run moment.budget moment.state =
      .error (.tooDeep moment.state.callLimit) moment.state ∧
    ∀ inner, moment.Reaches inner → ∀ frame code, inner.activity ≠ .steps frame code

/-- A moment comes up under a number of bodies of closures and promises that are then at work. -/
inductive ReachesUnder : Moment → Nat → Moment → Prop
  | here (moment : Moment) : ReachesUnder moment 0 moment
  | inside {whole part inner : Moment} {bodies : Nat} :
      whole.Starts part → ReachesUnder part bodies inner →
      ReachesUnder whole (whole.activity.levels + bodies) inner

variable {whole part inner : Moment}

theorem reaches_iff_under : whole.Reaches inner ↔ ∃ bodies, whole.ReachesUnder bodies inner := by
  constructor
  · intro reached
    induction reached with
    | here moment => exact ⟨0, .here moment⟩
    | inside starts _ ih =>
        obtain ⟨bodies, under⟩ := ih
        exact ⟨_, .inside starts under⟩
  · rintro ⟨bodies, under⟩
    induction under with
    | here moment => exact .here moment
    | inside starts _ ih => exact .inside starts ih

def AtLevel (limit : Nat) (level : Int) (moment : Moment) : Prop :=
  moment.Minds (fun frame => frame.depth = level ∧ level ≤ (limit : Int)) Action.AtDepth

theorem Starts.level_cases (starts : whole.Starts part) :
    (whole.activity.levels = 0 ∧ ∀ opened frame start, ¬ whole.Enters opened frame start) ∨
      whole.activity.levels = 1 ∧ ∃ opened inner, whole.Enters opened inner part.state ∧
        ∃ code, part.activity = .steps inner code := by
  cases starts with
  | closure entered => exact .inr ⟨rfl, _, _, .closure entered, _, rfl⟩
  | promise pending entered => exact .inr ⟨rfl, _, _, .promise pending entered, _, rfl⟩
  | _ => exact .inl ⟨rfl, fun _ _ _ enters => nomatch enters⟩

theorem Enters.level {opened : Scope} {frame : Frame} {start : State} {limit : Nat} {level : Int}
    (enters : whole.Enters opened frame start) (limited : whole.state.callLimit = limit)
    (placed : whole.AtLevel limit level) : frame.depth = level + 1 ∧ level + 1 ≤ (limit : Int) := by
  subst limited
  cases enters with
  | closure entered =>
      obtain ⟨deeper, shallow⟩ := enterClosure_deeper entered
      obtain ⟨same, _⟩ := placed
      exact ⟨same ▸ deeper, same ▸ shallow⟩
  | promise _ entered =>
      obtain ⟨deeper, shallow⟩ := enterPromise_deeper entered
      obtain ⟨same, _⟩ := placed
      exact ⟨same ▸ deeper, same ▸ shallow⟩

theorem Starts.atLevel {limit : Nat} {level : Int} (hosts : whole.HostsObey Action.AtDepth)
    (limited : whole.state.callLimit = limit) (placed : whole.AtLevel limit level)
    (starts : whole.Starts part) : part.AtLevel limit (level + whole.activity.levels) := by
  rcases starts.level_cases with ⟨same, none⟩ | ⟨deeper, opened, inner, enters, code, steps⟩
  · rw [same, Int.natCast_zero, Int.add_zero]
    refine starts.minds ?_ hosts (fun enters => absurd enters (none _ _ _)) placed
    exact fun atDepth passed fits => ⟨(atDepth _ passed).trans fits.1, fits.2⟩
  · obtain ⟨budget, activity, state⟩ := part
    dsimp only at steps
    subst steps
    rw [deeper]
    exact enters.level limited placed

theorem ReachesUnder.atLevel {limit bodies : Nat} {level : Int} (under : whole.ReachesUnder bodies inner)
    (hosts : whole.HostsObey Action.AtDepth) (limited : whole.state.callLimit = limit)
    (placed : whole.AtLevel limit level) : inner.AtLevel limit (level + bodies) := by
  induction under generalizing level with
  | here => rwa [Int.natCast_zero, Int.add_zero]
  | inside starts _ ih =>
      have grown := State.Grows.of_starts starts
      rw [Int.natCast_add, ← Int.add_assoc]
      exact ih (hosts.part starts) (grown.callLimit.trans limited) (starts.atLevel hosts limited placed)

end Moment

theorem Callable.body?_eq_some {target : Callable} {code : List Step} {state : State}
    (deeper : target.body? state = some code) :
    (∃ scope parameters, target = .closure scope code parameters) ∨
      ∃ id, target = .promise id ∧ (state.promise id).value = none ∧
        (state.promise id).body.getD [] = code := by
  cases target with
  | closure scope body parameters =>
      cases deeper
      exact .inl ⟨scope, parameters, rfl⟩
  | promise id =>
      cases present : (state.promise id).value with
      | some value =>
          rw [body?, present] at deeper
          cases deeper
      | none =>
          rw [body?, present] at deeper
          cases deeper
          exact .inr ⟨id, rfl, present, rfl⟩
  | _ => cases deeper

section Call

variable {target : Callable} {code : List Step} {caller : Frame} {args returns : Option Int} {state : State}
  (deeper : target.body? state = some code) (admitted : target.Admits caller args returns state)
include deeper

theorem Callable.runBody_of_too_deep (deep : (state.callLimit : Int) < caller.depth + 1)
    (machine : Machine) :
    target.runBody machine caller args returns state = .error (.tooDeep state.callLimit) state := by
  rcases body?_eq_some deeper with ⟨scope, parameters, rfl⟩ | ⟨id, rfl, pending, _⟩
  · have refused := enterClosure_apply scope parameters caller state
    rw [if_pos deep] at refused
    exact Run.bind_of_error refused
  · have refused := enterPromise_apply (state.promise id).scope caller state
    rw [if_pos deep] at refused
    rw [runBody, runPromise_of_pending pending, Promise.compute]
    exact Run.bind_of_error (Run.bind_of_error refused)

theorem Moment.body_starts_nothing (deep : (state.callLimit : Int) < caller.depth + 1) {budget : Nat}
    {part : Moment} : ¬ Starts ⟨budget, .body target caller args returns, state⟩ part := by
  intro starts
  cases starts with
  | closure entered => exact absurd (enterClosure_deeper entered).2 (Int.not_le.mpr deep)
  | promise _ entered => exact absurd (enterPromise_deeper entered).2 (Int.not_le.mpr deep)
  | force => cases deeper
  | host => cases deeper

include admitted

theorem Moment.call_of_too_deep (deep : (state.callLimit : Int) < caller.depth + 1) (budget : Nat) :
    TooDeep ⟨budget, .call target caller args returns, state⟩ := by
  have refused : target.runBody (.within budget) caller args returns state =
      .error (.tooDeep state.callLimit) state := Callable.runBody_of_too_deep deeper deep _
  refine ⟨?_, fun inner reached frame code same => ?_⟩
  · rw [Activity.run, Callable.callWithin_eq, Callable.callOnce_of_admits admitted]
    exact Run.bind_of_error refused
  · cases reached with
    | here => cases same
    | inside starts further =>
        cases starts with
        | body _ =>
            cases further with
            | here => cases same
            | inside starts _ => exact absurd starts (body_starts_nothing deeper deep)

/-- A call whose body lies no deeper than the limit takes its arguments off and has the body begin one level below
its caller, in a new scope that binds them and on a new stack. -/
theorem Moment.call_begins {parameters : List String} {captured : Option ScopeId}
    (captures : target.Captures state parameters captured) (shallow : caller.depth + 1 ≤ (state.callLimit : Int))
    (budget : Nat) :
    ∃ arguments rest, state.operands caller.stack = arguments.reverse ++ rest ∧
      arguments.length = parameters.length ∧
      ReachesUnder ⟨budget + 1, .call target caller args returns, state⟩ 1
        ⟨budget, .steps (state.nextFrame (caller.depth + 1)) code,
          (state.setOperands caller.stack rest).opening (.ofArguments captured parameters arguments)⟩ := by
  cases captures with
  | @closure scope body parameters =>
      cases deeper
      obtain ⟨_, present⟩ := admitted _ rfl
      have enough : parameters.length ≤ (state.operands caller.stack).length := by simpa using present
      have entered := enterClosure_apply scope parameters caller state
      rw [if_neg (Int.not_lt.mpr shallow), if_neg (Nat.not_lt.mpr enough), State.withArguments_eq] at entered
      refine ⟨((state.operands caller.stack).take parameters.length).reverse,
        (state.operands caller.stack).drop parameters.length, ?_, ?_, ?_⟩
      · rw [List.reverse_reverse, List.take_append_drop]
      · rw [List.length_reverse, List.length_take_of_le enough]
      · exact .inside (.body admitted) (.inside (.closure entered) (.here _))
  | @promise id =>
      obtain ⟨_, _, other⟩ | ⟨_, same, pending, rfl⟩ := Callable.body?_eq_some deeper
      · cases other
      · cases same
        have entered := enterPromise_apply (state.promise id).scope caller state
        rw [if_neg (Int.not_lt.mpr shallow)] at entered
        refine ⟨[], state.operands caller.stack, rfl, rfl, ?_⟩
        rw [State.setOperands_operands]
        exact .inside (.body admitted) (.inside (.promise pending entered) (.here _))

theorem Moment.call_enters (shallow : caller.depth + 1 ≤ (state.callLimit : Int)) (budget : Nat) :
    ∃ inner start, inner.depth = caller.depth + 1 ∧
      ReachesUnder ⟨budget + 1, .call target caller args returns, state⟩ 1 ⟨budget, .steps inner code, start⟩ := by
  have captures : ∃ parameters captured, target.Captures state parameters captured := by
    rcases Callable.body?_eq_some deeper with ⟨scope, parameters, rfl⟩ | ⟨id, rfl, _, _⟩
    · exact ⟨parameters, some scope, .closure⟩
    · exact ⟨[], _, .promise⟩
  obtain ⟨parameters, captured, captures⟩ := captures
  obtain ⟨arguments, rest, -, -, begins⟩ := call_begins deeper admitted captures shallow budget
  exact ⟨_, _, rfl, begins⟩

end Call

namespace Moment

variable {whole inner : Moment}

theorem Reaches.supplied (tame : whole.Tame) (supplied : whole.need ≤ whole.budget)
    (reached : whole.Reaches inner) : inner.need ≤ inner.budget := by
  induction reached with
  | here => exact supplied
  | inside starts _ ih => exact ih (tame.part starts) (starts.supplied tame supplied)

theorem Reaches.budget_pos (tame : whole.Tame) (supplied : whole.need ≤ whole.budget) {budget : Nat}
    {target : Callable} {caller : Frame} {args returns : Option Int} {state : State}
    (reached : whole.Reaches ⟨budget, .call target caller args returns, state⟩)
    (shallow : caller.depth < (whole.state.callLimit : Int)) : 0 < budget := by
  have enough := reached.supplied tame supplied
  have limit := (State.Grows.of_reaches reached).callLimit
  dsimp only at limit
  simp only [need, Frame.room, limit] at enough
  omega

end Moment

/-- If hosts keep to the depth of their frames, each step is executed as many levels deeper as there are bodies of
closures and promises at work above it. A call whose body would lie deeper than the limit fails and changes nothing,
any other begins its body one level deeper, and a promise with a value can be called at any depth. -/
theorem depth_counts_open_bodies (frame : Frame) (code : List Step) (state : State)
    (within : frame.depth ≤ (state.callLimit : Int))
    (hosts : (Moment.ofCode frame code state).HostsObey Action.AtDepth) :
    let whole := Moment.ofCode frame code state
    (∀ bodies budget inner step reached,
      whole.ReachesUnder bodies ⟨budget, .step inner step, reached⟩ →
        inner.depth = frame.depth + bodies ∧ inner.depth ≤ (state.callLimit : Int)) ∧
    (∀ target body caller args returns reached, Callable.body? reached target = some body →
      target.Admits caller args returns reached →
        ((reached.callLimit : Int) < caller.depth + 1 → ∀ budget,
          Moment.TooDeep ⟨budget, .call target caller args returns, reached⟩) ∧
        (caller.depth + 1 ≤ (reached.callLimit : Int) → ∀ budget, ∃ inner start,
          inner.depth = caller.depth + 1 ∧
            Moment.ReachesUnder ⟨budget + 1, .call target caller args returns, reached⟩ 1
              ⟨budget, .steps inner body, start⟩)) ∧
    (whole.Tame → ∀ budget target caller args returns reached,
      whole.Reaches ⟨budget, .call target caller args returns, reached⟩ →
        caller.depth < (state.callLimit : Int) → 0 < budget) ∧
    ∀ budget id value caller args returns reached, (State.promise reached id).value = some value →
      Signature.Accepts ⟨0, 1⟩ args returns → reached.HasStack caller.stack →
        Moment.OnlyPushes ⟨budget, .call (.promise id) caller args returns, reached⟩ caller.stack value := by
  refine ⟨fun bodies budget inner step reached under => ?_, ?_, ?_, ?_⟩
  · obtain ⟨level, shallow⟩ := under.atLevel hosts rfl ⟨rfl, within⟩
    exact ⟨level, level ▸ shallow⟩
  · intro target body caller args returns reached deeper admitted
    exact ⟨Moment.call_of_too_deep deeper admitted, Moment.call_enters deeper admitted⟩
  · intro tame budget target caller args returns reached comesUp shallow
    exact comesUp.budget_pos tame (Moment.ofCode_supplied frame code state) shallow
  · intro budget id value caller args returns reached present accepted made
    exact Moment.call_onlyPushes present accepted made

def loop : Callable :=
  .closure ⟨0⟩ loopCall []

theorem depth_counts_open_bodies_when_looping :
    (∃ budget inner reached,
      (Moment.ofCode firstFrame loopCall (looping 1)).ReachesUnder 1
        ⟨budget, .step inner (.call "loop" (some 0) (some 1)), reached⟩ ∧ inner.depth = 1 ∧
      Moment.TooDeep ⟨budget, .call loop inner (some 0) (some 1), reached⟩) ∧
      (∃ budget inner start,
        Moment.ReachesUnder ⟨budget + 1, .call loop firstFrame (some 0) (some 1), looping 1⟩ 1
          ⟨budget, .steps inner loopCall, start⟩ ∧ inner.depth = 1) ∧
      Moment.OnlyPushes ⟨0, .call (.promise ⟨0⟩) ⟨⟨0⟩, ⟨0⟩, 9⟩ (some 0) none,
        { looping 1 with promises := #[.resolved seven] }⟩ ⟨0⟩ seven := by
  have hostless : (Moment.ofCode firstFrame loopCall (looping 1)).HostsObey Action.AtDepth :=
    Moment.hostsObey_of_library fun body member => absurd member (Array.not_mem_empty body)
  obtain ⟨level, calls, -, resolved⟩ :=
    depth_counts_open_bodies firstFrame loopCall (looping 1) (by decide) hostless
  have admitted (caller : Frame) (state : State) : loop.Admits caller (some 0) (some 1) state :=
    Callable.admits_of_accepts rfl (by simp [Signature.Accepts]) (by simp)
  refine ⟨?_, ?_, resolved 0 ⟨0⟩ seven _ _ _ _ rfl (by simp [Signature.Accepts]) (by decide)⟩
  · have under : (Moment.ofCode firstFrame loopCall (looping 1)).ReachesUnder 1
        ⟨_, .step _ (.call "loop" (some 0) (some 1)), _⟩ :=
      .inside .first (.inside (.named rfl rfl) (.inside (.body (admitted _ _))
        (.inside (.closure rfl) (.inside .first (.here _)))))
    have depth := (level _ _ _ _ _ under).1
    refine ⟨_, _, _, under, depth, ?_⟩
    exact (calls loop loopCall _ _ _ _ rfl (admitted _ _)).1 (by decide) _
  · obtain ⟨inner, start, deeper, under⟩ := (calls loop loopCall firstFrame (some 0) (some 1) (looping 1) rfl
      (admitted _ _)).2 (by decide) 0
    exact ⟨0, inner, start, under, deeper⟩

def markingBody : HostBody := fun frame _ _ =>
  .act (.kept ⟨0⟩) fun
    | [] => .act (.keep ⟨0⟩ frame) .done
    | first :: _ => .act (.run [.note "here"] first) .done

def insideCode : List Step :=
  [.call "mark" (some 0) (some 0), .push seven]

def marking : State :=
  { State.empty 1 with
    scopes := #[⟨[("mark", .callable (.host ⟨0⟩ ⟨"mark", some ⟨0, 0⟩⟩)),
      ("inside", .callable (.closure ⟨0⟩ insideCode []))], none⟩]
    operandStacks := #[[]]
    hosts := #[markingBody]
    hostMemories := #[.empty] }

def markingCode : List Step :=
  [.call "mark" (some 0) (some 0), .call "inside" (some 0) (some 1)]

/-- With a body at work a step is executed on the very first frame, and a call with a wrong count fails for that
although its body would lie too deep. -/
theorem kept_frame_and_wrong_count_escape_depth :
    Run.failure? (runCode firstFrame markingCode) marking = none ∧
      (∃ budget reached, (Moment.ofCode firstFrame markingCode marking).ReachesUnder 1
        ⟨budget, .step firstFrame (.note "here"), reached⟩) ∧
      Run.failure? (loop.call ⟨⟨0⟩, ⟨0⟩, 1⟩ (some 1) (some 1)) (looping 1) = some (.argumentCount "Closure" 0 1) := by
  have admitted (caller : Frame) (state : State) :
      (Callable.host ⟨0⟩ ⟨"mark", some ⟨0, 0⟩⟩).Admits caller (some 0) (some 0) state :=
    Callable.admits_of_accepts rfl (by simp [Signature.Accepts]) (by simp)
  have inside (caller : Frame) (state : State) :
      (Callable.closure ⟨0⟩ insideCode []).Admits caller (some 0) (some 1) state :=
    Callable.admits_of_accepts rfl (by simp [Signature.Accepts]) (by simp)
  -- The second call of the host comes from the body of the closure, and goes back to the frame of the first.
  have back (budget : Nat) (caller : Frame) (state : State) (provided : state.hostBody ⟨0⟩ = markingBody)
      (kept : (state.memory ⟨0⟩).frames = [firstFrame]) :
      Moment.ReachesUnder ⟨budget + 1, .body (.host ⟨0⟩ ⟨"mark", some ⟨0, 0⟩⟩) caller (some 0) (some 0), state⟩ 0
        ⟨budget, .step firstFrame (.note "here"), state⟩ := by
    have replied : (Action.kept ⟨0⟩).perform (.within (budget + 1)) state = .ok [firstFrame] state :=
      congrArg (EStateM.Result.ok · state) kept
    have went : Moment.ReachesUnder ⟨budget + 1, .program (markingBody caller (some 0) (some 0)), state⟩ 0
        ⟨budget, .step firstFrame (.note "here"), state⟩ :=
      .inside (.next replied) (.inside .acts (.inside .ran (.inside .first (.here _))))
    exact .inside .host (provided ▸ went)
  have under : (Moment.ofCode firstFrame markingCode marking).ReachesUnder 1
      ⟨_, .step firstFrame (.note "here"), _⟩ :=
    .inside (.rest rfl) (.inside .first (.inside (.named rfl rfl) (.inside (.body (inside _ _))
      (.inside (.closure rfl) (.inside .first (.inside (.named rfl rfl) (.inside (.body (admitted _ _))
        (back _ _ _ rfl rfl))))))))
  exact ⟨by decide +kernel, ⟨_, _, under⟩, by decide +kernel⟩

end LazyStack
