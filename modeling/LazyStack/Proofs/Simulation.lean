import LazyStack.Proofs.Operation
import LazyStack.Proofs.Tagging

/-!
What comes up in the course of a run. A moment that mirrors another begins only such moments as mirror some other
again, so all that comes up in the course of what a session asks for is in order: each thing of the state mirrors
some other, and so do the callables that are called there and the frames that they are called on.
-/

namespace LazyStack

inductive Activity.Mirrors (pairs : Counterparts) : Activity → Activity → Prop
  | call {target other frame caller args returns} :
      target.Mirrors pairs other → frame.Mirrors pairs caller →
      Activity.Mirrors pairs (.call target frame args returns) (.call other caller args returns)
  | body {target other frame caller args returns} :
      target.Mirrors pairs other → frame.Mirrors pairs caller →
      Activity.Mirrors pairs (.body target frame args returns) (.body other caller args returns)
  | step {frame caller single like} :
      frame.Mirrors pairs caller → single.Mirrors pairs like →
      Activity.Mirrors pairs (.step frame single) (.step caller like)
  | steps {frame caller code like} :
      frame.Mirrors pairs caller → Code.Mirrors pairs code like →
      Activity.Mirrors pairs (.steps frame code) (.steps caller like)
  | program {actions others} :
      Program.Mirrors Counterparts.Always pairs actions others →
      Activity.Mirrors pairs (.program actions) (.program others)
  | action {single other replies} :
      Action.Mirrors pairs single other replies → Activity.Mirrors pairs (.action single) (.action other)

structure Moment.Mirrors (pairs : Counterparts) (moment other : Moment) : Prop where
  budget : moment.budget = other.budget
  activity : moment.activity.Mirrors pairs other.activity
  state : moment.state.Mirrors pairs other.state

theorem Machine.uniform_within {settled : Prop} (budget : Nat) : (Machine.within budget).Uniform settled := by
  cases budget with
  | zero => exact Machine.uniform_stopped
  | succ budget => exact Machine.uniform_ofCalls (Callable.uniform_callWithin budget)

theorem Run.Lockstep.of_ok {settled : Prop} {pairs : Counterparts} {α β : Type}
    {fit : Counterparts → α → β → Prop} {run : Run α} {other : Run β}
    (lockstep : Run.Lockstep settled pairs fit run other) {left right after : State}
    (mirrors : left.Mirrors pairs right) {result : α} (ran : run left = .ok result after) :
    ∃ wider answer later, State.Advance settled pairs wider left right after later ∧ fit wider result answer := by
  have together := lockstep mirrors
  rw [ran] at together
  generalize other right = outcome at together
  cases together with
  | ends advance fits => exact ⟨_, _, _, advance, fits⟩

namespace Moment

variable {pairs : Counterparts} {whole inner other : Moment}

/-- What comes up from a state is mirrored by what comes up from a state that mirrors it. -/
def Follows (pairs : Counterparts) (left right : State) (inner : Moment) : Prop :=
  ∃ wider like, State.Advance False pairs wider left right inner.state like.state ∧ inner.Mirrors wider like

section Follows

variable {left right after later : State} {budget : Nat} {activity like : Activity} {wider : Counterparts}

theorem Follows.advanced (advance : State.Advance False pairs wider left right after later)
    (alike : activity.Mirrors wider like) : Follows pairs left right ⟨budget, activity, after⟩ :=
  ⟨wider, ⟨budget, like, later⟩, advance, rfl, alike, advance.mirrors⟩

theorem Follows.stay (mirrors : left.Mirrors pairs right) (alike : activity.Mirrors pairs like) :
    Follows pairs left right ⟨budget, activity, left⟩ :=
  .advanced mirrors.stay alike

variable (mirrors : left.Mirrors pairs right)
include mirrors

theorem Starts.follows_call {target beyond : Callable} {frame caller : Frame} {args returns : Option Int}
    (starts : Starts ⟨budget, .call target frame args returns, left⟩ inner) (alike : target.Mirrors pairs beyond)
    (frames : frame.Mirrors pairs caller) : Follows pairs left right inner := by
  cases starts with
  | body admitted => exact .stay mirrors (.body alike frames)

theorem Starts.follows_body {target beyond : Callable} {frame caller : Frame} {args returns : Option Int}
    (starts : Starts ⟨budget, .body target frame args returns, left⟩ inner) (alike : target.Mirrors pairs beyond)
    (frames : frame.Mirrors pairs caller) : Follows pairs left right inner := by
  cases starts with
  | closure entered =>
      cases alike with
      | closure paired body =>
          obtain ⟨wider, _, later, advance, frames⟩ :=
            (lockstep_enterClosure frames paired _).of_ok mirrors entered
          exact .advanced advance (.steps frames (body.mono advance.within))
  | promise pending entered =>
      cases alike with
      | promise paired =>
          have promises := mirrors.promise paired
          obtain ⟨wider, _, later, advance, frames⟩ :=
            (lockstep_enterPromise frames promises.scope).of_ok mirrors entered
          exact .advanced advance (.steps frames (promises.body_getD.mono advance.within))
  | force popped expected =>
      cases alike with
      | force =>
          obtain ⟨wider, _, later, advance, value⟩ := (StackId.lockstep_pop frames.stack).of_ok mirrors popped
          obtain ⟨further, _, last, more, payload⟩ :=
            (Value.lockstep_expect value .callable _).of_ok advance.mirrors expected
          cases payload with
          | callable target =>
              exact .advanced (advance.trans more) (.call target ((frames.mono advance.within).mono more.within))
  | host =>
      cases alike with
      | host paired => exact .stay mirrors (.program ((mirrors.host paired).1.behaves (.refl pairs) frames))

theorem Starts.follows_step {single beyond : Step} {frame caller : Frame}
    (starts : Starts ⟨budget, .step frame single, left⟩ inner) (frames : frame.Mirrors pairs caller)
    (alike : single.Mirrors pairs beyond) : Follows pairs left right inner := by
  cases starts with
  | got bound =>
      cases alike with
      | get =>
          obtain ⟨_, found⟩ := exists_rel_of_some (bound ▸ mirrors.lookup? frames.scope _)
          cases found with
          | callable target => exact .stay mirrors (.call target frames)
  | named bound resolved =>
      cases alike with
      | call =>
          obtain ⟨_, found⟩ := exists_rel_of_some (bound ▸ mirrors.lookup? frames.scope _)
          obtain ⟨wider, _, later, advance, target⟩ :=
            (Binding.lockstep_callee found _).of_ok mirrors resolved
          exact .advanced advance (.call target (frames.mono advance.within))

theorem Starts.follows_steps {code beyond : List Step} {frame caller : Frame}
    (starts : Starts ⟨budget, .steps frame code, left⟩ inner) (frames : frame.Mirrors pairs caller)
    (alike : Code.Mirrors pairs code beyond) : Follows pairs left right inner := by
  cases starts with
  | first =>
      cases alike with
      | cons step _ => exact .stay mirrors (.step frames step)
  | rest executed =>
      cases alike with
      | cons step rest =>
          obtain ⟨wider, _, later, advance, _⟩ :=
            (Step.lockstep_execute (Callable.uniform_callWithin budget) frames step).of_ok mirrors executed
          exact .advanced advance (.steps (frames.mono advance.within) (rest.mono advance.within))

theorem Starts.follows_action {single beyond : Action} {replies : Counterparts → single.Reply → beyond.Reply → Prop}
    (starts : Starts ⟨budget, .action single, left⟩ inner) (alike : Action.Mirrors pairs single beyond replies) :
    Follows pairs left right inner := by
  cases starts with
  | asked =>
      cases alike with
      | call target frames => exact .stay mirrors (.call target frames)
  | ran =>
      cases alike with
      | run code frames => exact .stay mirrors (.steps frames code)

theorem Starts.follows_program {actions beyond : Program Unit}
    (starts : Starts ⟨budget, .program actions, left⟩ inner)
    (alike : Program.Mirrors Counterparts.Always pairs actions beyond) : Follows pairs left right inner := by
  cases starts with
  | acts =>
      cases alike with
      | act action _ => exact .stay mirrors (.action action)
  | attempts =>
      cases alike with
      | attempt action _ => exact .stay mirrors (.action action)
  | next performed =>
      cases alike with
      | act action goOn =>
          obtain ⟨wider, _, later, advance, replies⟩ :=
            (Action.lockstep_perform (Machine.uniform_within budget) action).of_ok mirrors performed
          exact .advanced advance (.program (goOn advance.within replies))
  | goesOn attempted =>
      cases alike with
      | attempt action goOn =>
          obtain ⟨wider, _, later, advance, outcomes⟩ :=
            (Action.lockstep_perform (Machine.uniform_within budget) action).outcome.of_ok mirrors attempted
          exact .advanced advance (.program (goOn advance.within outcomes))

end Follows

theorem Starts.mirrors (starts : whole.Starts inner) (same : whole.Mirrors pairs other) :
    Follows pairs whole.state other.state inner := by
  obtain ⟨budget, activity, left⟩ := whole
  obtain ⟨_, _, right⟩ := other
  obtain ⟨_, alike, mirrors⟩ := same
  dsimp only at alike mirrors
  cases alike with
  | call target frames => exact starts.follows_call mirrors target frames
  | body target frames => exact starts.follows_body mirrors target frames
  | step frames single => exact starts.follows_step mirrors frames single
  | steps frames code => exact starts.follows_steps mirrors frames code
  | program actions => exact starts.follows_program mirrors actions
  | action single => exact starts.follows_action mirrors single

/-- A moment that mirrors another, in a state of which each thing mirrors some other. -/
def Sound (moment : Moment) : Prop :=
  ∃ pairs other, moment.Mirrors pairs other ∧ ∀ thing, moment.state.Has thing → ∃ like, pairs thing like

theorem Sound.part (sound : whole.Sound) (starts : whole.Starts inner) : inner.Sound := by
  obtain ⟨pairs, other, same, covered⟩ := sound
  obtain ⟨wider, like, advance, mirrors⟩ := starts.mirrors same
  exact ⟨wider, like, mirrors, advance.covers_all covered⟩

theorem Sound.reached (sound : whole.Sound) (reached : whole.Reaches inner) : inner.Sound := by
  induction reached with
  | here => exact sound
  | inside starts _ ih => exact ih (sound.part starts)

end Moment

inductive Operation.Mirrors (pairs : Counterparts) : Operation → Operation → Prop
  | execute {environment other code like} :
      environment.Mirrors pairs other → Code.Mirrors pairs code like →
      Operation.Mirrors pairs (.execute environment code) (.execute other like)
  | evaluate {environment other node like} :
      environment.Mirrors pairs other → node.Mirrors pairs like →
      Operation.Mirrors pairs (.evaluate environment node) (.evaluate other like)
  | run {frame caller code like} :
      frame.Mirrors pairs caller → Code.Mirrors pairs code like →
      Operation.Mirrors pairs (.run frame code) (.run caller like)
  | call {target other frame caller args returns} :
      target.Mirrors pairs other → frame.Mirrors pairs caller →
      Operation.Mirrors pairs (.call target frame args returns) (.call other caller args returns)

namespace Operation

variable {pairs : Counterparts} {operation other : Operation} {left right : State}
  {moment : Moment}

theorem Begins.mirrors (begins : operation.Begins left moment) (same : operation.Mirrors pairs other)
    (mirrors : left.Mirrors pairs right) :
    ∃ wider like, State.Advance False pairs wider left right moment.state like.state ∧
      moment.Mirrors wider like := by
  induction begins generalizing pairs other right with
  | @execute environment steps left =>
      cases same with
      | execute environments code =>
          have opened : State.Advance False pairs _ left right left.stacking right.stacking := mirrors.openStack
          have told : State.Advance False _ _ _ _ (left.stacking.record (.executing steps.length))
              (right.stacking.record (.executing _)) :=
            opened.mirrors.record (congrArg (fun steps => (Event.executing steps).message) code.length_eq)
          have within := opened.within
          exact ⟨_, ⟨_, .steps ⟨_, ⟨right.operandStacks.size⟩, 0⟩ _, _⟩, opened.trans told,
            congrArg (callBudget · 0) mirrors.callLimit,
            .steps ⟨within environments.globals, .inr ⟨rfl, rfl⟩, rfl⟩ (code.mono within), told.mirrors⟩
  | @evaluate environment node left code middle moment lowered _ ih =>
      cases same with
      | evaluate environments node =>
          obtain ⟨wider, _, later, advance, code⟩ := node.lockstep_lower.of_ok mirrors lowered
          obtain ⟨further, like, more, reached⟩ :=
            ih (.execute (environments.mono advance.within) code) advance.mirrors
          exact ⟨further, like, advance.trans more, reached⟩
  | @run frame code left =>
      cases same with
      | run frames code =>
          exact ⟨pairs, ⟨_, _, right⟩, mirrors.stay, congrArg₂ callBudget mirrors.callLimit frames.depth,
            .steps frames code, mirrors⟩
  | @call target frame args returns left =>
      cases same with
      | call target frames =>
          exact ⟨pairs, ⟨_, _, right⟩, mirrors.stay, congrArg₂ callBudget mirrors.callLimit frames.depth,
            .call target frames, mirrors⟩
  | act => cases same

end Operation

namespace Session

/-- A deed comes to an operation that runs code, in the state that it has reached by then. -/
inductive Asks (session : Session) : Deed → Operation → State → Prop
  | evaluate {key environment spec names node middle} :
      session.registers.environments.get? key = some environment →
      spec.build session.registers environment.globals environment.domain session.state = .ok node middle →
      Asks session (.command ⟨key, .evaluate spec names⟩) (.evaluate environment node) middle
  | define {key environment name spec node middle} :
      session.registers.environments.get? key = some environment →
      spec.build session.registers environment.globals environment.domain session.state = .ok node middle →
      Asks session (.command ⟨key, .define name spec⟩) (.evaluate environment node) middle
  | execute {key environment source code} :
      session.registers.environments.get? key = some environment →
      session.registers.codes.get? source = some code →
      Asks session (.command ⟨key, .execute source⟩) (.execute environment code) session.state
  | executeOn {key source name code frame} :
      session.registers.codes.get? source = some code → session.registers.frames.get? name = some frame →
      Asks session (.command ⟨key, .executeOn source name⟩) (.run frame code) session.state
  | executeStep {key environment spec name step frame middle} :
      session.registers.environments.get? key = some environment →
      spec.build session.registers environment.globals environment.domain session.state = .ok step middle →
      session.registers.frames.get? name = some frame →
      Asks session (.command ⟨key, .executeStep spec name⟩) (.run frame [step]) middle
  | callNamed {key environment callee name args returns frame binding target} :
      session.registers.environments.get? key = some environment →
      session.registers.frames.get? name = some frame →
      session.state.lookup? environment.globals callee = some binding →
      binding.callee callee session.state = .ok target session.state →
      Asks session (.command ⟨key, .callNamed callee name args returns⟩) (.call target frame args returns)
        session.state
  | callValue {key environment spec name args returns frame value target middle} :
      session.registers.environments.get? key = some environment →
      session.registers.frames.get? name = some frame →
      spec.build session.registers environment.globals environment.domain session.state = .ok value middle →
      value.expect .callable "call target" middle = .ok (.callable target) middle →
      Asks session (.command ⟨key, .callValue spec name args returns⟩) (.call target frame args returns) middle

def Reaches (session : Session) (deed : Deed) (inner : Moment) : Prop :=
  ∃ operation middle, session.Asks deed operation middle ∧ operation.Reaches middle inner

variable {session : Session}

theorem Asks.mirrors {pairs : Counterparts} {deed : Deed} {operation : Operation} {middle : State}
    (asks : session.Asks deed operation middle) (plain : deed.Plain) (mirrors : session.Mirrors pairs session) :
    ∃ wider later like, State.Advance False pairs wider session.state session.state middle later ∧
      operation.Mirrors wider like := by
  have environments {key : String} {environment : Environment}
      (found : session.registers.environments.get? key = some environment) :
      ∃ other, environment.Mirrors pairs other :=
    exists_rel_of_some (found ▸ mirrors.registers.environments.get? key)
  have frames {key : String} {frame : Frame} (found : session.registers.frames.get? key = some frame) :
      ∃ other, frame.Mirrors pairs other :=
    exists_rel_of_some (found ▸ mirrors.registers.frames.get? key)
  have codes {key : String} {code : List Step} (found : session.registers.codes.get? key = some code) :
      ∃ other, Code.Mirrors pairs code other :=
    exists_rel_of_some (found ▸ mirrors.registers.codes.get? key)
  cases asks with
  | evaluate opened built =>
      obtain ⟨_, alike⟩ := environments opened
      obtain ⟨wider, _, later, advance, node⟩ :=
        (NodeSpec.lockstep_build (Command.ingredients alike mirrors.registers) _ plain).of_ok mirrors.state built
      exact ⟨wider, later, _, advance, .evaluate (alike.mono advance.within) node⟩
  | define opened built =>
      obtain ⟨_, alike⟩ := environments opened
      obtain ⟨wider, _, later, advance, node⟩ :=
        (NodeSpec.lockstep_build (Command.ingredients alike mirrors.registers) _ plain).of_ok mirrors.state built
      exact ⟨wider, later, _, advance, .evaluate (alike.mono advance.within) node⟩
  | execute opened kept =>
      obtain ⟨_, alike⟩ := environments opened
      obtain ⟨_, code⟩ := codes kept
      exact ⟨pairs, session.state, _, mirrors.state.stay, .execute alike code⟩
  | executeOn kept framed =>
      obtain ⟨_, code⟩ := codes kept
      obtain ⟨_, caller⟩ := frames framed
      exact ⟨pairs, session.state, _, mirrors.state.stay, .run caller code⟩
  | executeStep opened built framed =>
      obtain ⟨_, alike⟩ := environments opened
      obtain ⟨_, caller⟩ := frames framed
      obtain ⟨wider, _, later, advance, step⟩ :=
        (StepSpec.lockstep_build (Command.ingredients alike mirrors.registers) _ plain).of_ok mirrors.state built
      exact ⟨wider, later, _, advance, .run (caller.mono advance.within) (.cons step .nil)⟩
  | @callNamed _ _ callee _ _ _ _ _ _ opened framed bound resolved =>
      obtain ⟨_, alike⟩ := environments opened
      obtain ⟨_, caller⟩ := frames framed
      obtain ⟨_, found⟩ := exists_rel_of_some (bound ▸ mirrors.state.lookup? alike.globals callee)
      obtain ⟨wider, _, later, advance, target⟩ :=
        (Binding.lockstep_callee found callee).of_ok mirrors.state resolved
      exact ⟨wider, later, _, advance, .call target (caller.mono advance.within)⟩
  | callValue opened framed built expected =>
      obtain ⟨_, alike⟩ := environments opened
      obtain ⟨_, caller⟩ := frames framed
      obtain ⟨wider, _, later, advance, value⟩ :=
        (ValueSpec.lockstep_build (Command.ingredients alike mirrors.registers) _ plain).of_ok mirrors.state built
      obtain ⟨further, _, last, more, payload⟩ :=
        (Value.lockstep_expect value .callable _).of_ok advance.mirrors expected
      cases payload with
      | callable target =>
          exact ⟨further, last, _, advance.trans more,
            .call target ((caller.mono advance.within).mono more.within)⟩

theorem Sound.reached (sound : session.Sound) {deed : Deed} (plain : deed.Plain) {inner : Moment}
    (reached : session.Reaches deed inner) : inner.Sound := by
  obtain ⟨pairs, mirrors, covered⟩ := sound
  obtain ⟨operation, middle, asks, moment, begins, inside⟩ := reached
  obtain ⟨wider, later, like, advance, same⟩ := asks.mirrors plain mirrors
  obtain ⟨further, other, more, found⟩ := begins.mirrors same advance.mirrors
  have whole : moment.Sound := ⟨further, other, found, more.covers_all (advance.covers_all covered)⟩
  exact whole.reached inside

end Session

end LazyStack
