import LazyStack.Proofs.Entry

/-!
What hosts do. An action either has a callable called or code run on a frame, or changes the state by
itself in one of a few ways. A law on the actions of the hosts that a run calls is one on all actions that
come up in the run, each of them taken on the frame that its host is called on.
-/

namespace LazyStack

def Action.frame? : Action → Option Frame
  | .call _ frame _ _ => some frame
  | .run _ frame => some frame
  | _ => none

/-- An action that a host completes by itself, without running code. -/
def Action.Direct (action : Action) : Prop :=
  action.frame? = none

namespace Action

def stack? : Action → Option StackId
  | .pop stack => some stack
  | .popMany stack _ => some stack
  | .push stack _ => some stack
  | _ => none

def scope? : Action → Option ScopeId
  | .bind scope _ _ => some scope
  | .rebind scope _ _ => some scope
  | _ => none

/-- The ways in which an action that runs no code changes the state. -/
inductive Changes : Action → State → State → Prop
  | marks {action} (state : State) (memories : Array Memory) (log : Array Event) (nextIdentity : Nat) :
      Changes action state { state with
        hostMemories := memories, log := log, nextIdentity := nextIdentity }
  | operates {action stack} (state : State) (values : Operands) :
      action.stack? = some stack → Changes action state (state.setOperands stack values)
  | binds {scope name binding} (state : State) :
      Changes (.bind scope name binding) state (state.bind scope name binding)
  | rebinds {scope name binding state owner} :
      state.owner? scope name = some owner →
      Changes (.rebind scope name binding) state (state.bind owner name binding)
  | opens {parent} (state : State) :
      Changes (.newScope parent) state { state with scopes := state.scopes.push ⟨[], parent⟩ }
  | newStack (state : State) :
      Changes .newStack state { state with operandStacks := state.operandStacks.push [] }
  | delays {scope body} (state : State) :
      Changes (.newPromise scope body) state
        { state with promises := state.promises.push (.pending scope body) }

theorem Changes.of_nothing (action : Action) (state : State) : Changes action state state :=
  .marks state state.hostMemories state.log state.nextIdentity

theorem Direct.changes {action : Action} (direct : action.Direct) {budget : Nat} {state final : State}
    (ends : Moment.after ⟨budget, .action action, state⟩ = final) : action.Changes state final := by
  rw [← ends, Moment.after_action]
  cases action with
  | pop stack =>
      cases present : state.operands stack with
      | nil =>
          rw [Action.perform, Run.after_of_error (stack.pop_of_nil state present)]
          exact .of_nothing _ state
      | cons value rest =>
          rw [Action.perform, Run.after_of_ok (stack.pop_of_cons state present)]
          exact .operates state rest rfl
  | popMany stack count =>
      have taken := stack.popMany_apply state count
      by_cases short : ((state.operands stack).length : Int) < count
      · rw [if_pos short] at taken
        rw [Action.perform, Run.after_of_error taken]
        exact .of_nothing _ state
      · rw [if_neg short] at taken
        rw [Action.perform, Run.after_of_ok taken]
        exact .operates state _ rfl
  | push stack value => exact .operates state _ rfl
  | bind scope name binding => exact .binds state
  | rebind scope name binding =>
      rw [Action.perform, ScopeId.rebind, Run.after_bind_of_ok (Run.get_apply state)]
      cases found : state.owner? scope name with
      | none => exact .of_nothing _ state
      | some owner => exact .rebinds found
  | call target frame args returns => cases direct
  | run code frame => cases direct
  | newScope parent => exact .opens state
  | newStack => exact .newStack state
  | newPromise scope body => exact .delays state
  | create domain tag payload =>
      rw [Action.perform, Run.after, DomainId.create_apply]
      cases (state.domain domain).names.get? tag with
      | none => exact .of_nothing _ state
      | some name =>
          dsimp only
          by_cases fitting : payload.fits tag
          · rw [if_pos fitting]
            exact .marks state _ _ _
          · rw [if_neg fitting]
            exact .of_nothing _ state
  | nullOf domain => exact .of_nothing _ state
  | expect value tag description =>
      rw [Action.perform, value.reads_expect tag description state]
      exact .of_nothing _ state
  | count host => exact .marks state _ _ _
  | keep host frame => exact .marks state _ _ _
  | kept host => exact .of_nothing _ state
  | valueText value =>
      rw [Action.perform, Run.reads_show _ state]
      exact .of_nothing _ state
  | scopeText scope =>
      rw [Action.perform, Run.reads_show _ state]
      exact .of_nothing _ state

theorem Direct.perform_eq {action : Action} (direct : action.Direct) (machine other : Machine) :
    action.perform machine = action.perform other := by
  cases action with
  | call target frame args returns => cases direct
  | run code frame => cases direct
  | _ => rfl

end Action

/-- Each action that a program comes to keeps to a law, in the state in which it comes up. -/
def Program.Obeys {α : Type} (law : Action → State → Prop) (budget : Nat) : Program α → State → Prop
  | .done _, _ => True
  | .fail _, _ => True
  | .act action next, state =>
      law action state ∧ ∀ reply middle, action.perform (.within budget) state = .ok reply middle →
        (next reply).Obeys law budget middle
  | .attempt action next, state =>
      law action state ∧
        ∀ outcome middle, Run.outcome (action.perform (.within budget)) state = .ok outcome middle →
          (next outcome).Obeys law budget middle

namespace Moment

/-- The hosts that a course calls keep to a law on the frames that they are called on. -/
def HostsObey (law : Frame → Action → State → Prop) (whole : Moment) : Prop :=
  ∀ ⦃budget id header frame args returns state⦄,
    whole.Reaches ⟨budget, .body (.host id header) frame args returns, state⟩ →
    (state.hostBody id frame args returns).Obeys (law frame) budget state

theorem HostsObey.part {law : Frame → Action → State → Prop} {whole part : Moment}
    (obey : whole.HostsObey law) (starts : whole.Starts part) : part.HostsObey law := by
  intro budget id header frame args returns state reached
  exact obey (.inside starts reached)

def Minds (kind : Frame → Prop) (law : Frame → Action → State → Prop) : Moment → Prop
  | ⟨_, .call _ frame _ _, _⟩ => kind frame
  | ⟨_, .body _ frame _ _, _⟩ => kind frame
  | ⟨_, .step frame _, _⟩ => kind frame
  | ⟨_, .steps frame _, _⟩ => kind frame
  | ⟨budget, .program actions, state⟩ => ∃ frame, kind frame ∧ actions.Obeys (law frame) budget state
  | ⟨_, .action action, state⟩ => ∃ frame, kind frame ∧ law frame action state

section Minds

variable {kind : Frame → Prop} {law : Frame → Action → State → Prop} {whole part inner : Moment}
  (passes : ∀ {frame next action state}, law frame action state → action.frame? = some next →
    kind frame → kind next)
include passes

theorem Starts.minds (obey : whole.HostsObey law)
    (enters : ∀ {opened frame start}, whole.Enters opened frame start → kind frame)
    (minds : whole.Minds kind law) (starts : whole.Starts part) : part.Minds kind law := by
  cases starts with
  | body admitted => exact minds
  | closure entered => exact enters (.closure entered)
  | promise pending entered => exact enters (.promise pending entered)
  | force popped expected => exact minds
  | host => exact ⟨_, minds, obey (.here _)⟩
  | got bound => exact minds
  | named bound resolved => exact minds
  | first => exact minds
  | rest executed => exact minds
  | asked =>
      obtain ⟨frame, fits, lawful⟩ := minds
      exact passes lawful rfl fits
  | ran =>
      obtain ⟨frame, fits, lawful⟩ := minds
      exact passes lawful rfl fits
  | acts =>
      obtain ⟨frame, fits, lawful, _⟩ := minds
      exact ⟨frame, fits, lawful⟩
  | attempts =>
      obtain ⟨frame, fits, lawful, _⟩ := minds
      exact ⟨frame, fits, lawful⟩
  | next performed =>
      obtain ⟨frame, fits, _, later⟩ := minds
      exact ⟨frame, fits, later _ _ performed⟩
  | goesOn attempted =>
      obtain ⟨frame, fits, _, later⟩ := minds
      exact ⟨frame, fits, later _ _ attempted⟩

theorem Reaches.minds (obey : whole.HostsObey law)
    (enters : ∀ {moment opened frame start}, whole.Reaches moment →
      moment.Enters opened frame start → kind frame)
    (minds : whole.Minds kind law) (reached : whole.Reaches inner) : inner.Minds kind law := by
  induction reached with
  | here => exact minds
  | inside starts _ ih =>
      exact ih (obey.part starts) (fun deeper => enters (.inside starts deeper))
        (starts.minds passes obey (enters (.here _)) minds)

end Minds

structure Keeps (law : Action → State → Prop) (whole : Moment) : Prop where
  hosts : whole.HostsObey fun _ => law
  minds : whole.Minds (fun _ => True) fun _ => law

namespace Keeps

variable {law : Action → State → Prop} {whole piece inner : Moment}

theorem part (keeps : whole.Keeps law) (starts : whole.Starts piece) : piece.Keeps law where
  hosts := keeps.hosts.part starts
  minds := starts.minds (fun _ _ _ => trivial) keeps.hosts (fun _ => trivial) keeps.minds

theorem inside (keeps : whole.Keeps law) (reached : whole.Reaches inner) : inner.Keeps law := by
  induction reached with
  | here => exact keeps
  | inside starts _ ih => exact ih (keeps.part starts)

end Keeps

end Moment

end LazyStack
