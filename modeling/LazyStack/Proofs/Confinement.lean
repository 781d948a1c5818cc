import LazyStack.Proofs.Library
import LazyStack.Proofs.Order

/-!
Running code rebinds nothing. The only scopes that a run writes by itself are those it opens, and it
writes them before any code sees them. Its values go to the stack of its own frame and to stacks that it
adds. Where the hosts that it calls keep to the stack they are called on, too, every scope that there was
before stays as it was, and so does every stack but that of the frame.
-/

namespace LazyStack

/-- An action that writes no scope that there is, and no stack but one. What it runs, it runs on a frame
with that stack. -/
def Action.Confined (stack : StackId) (action : Action) (state : State) : Prop :=
  match action.frame? with
  | some frame => frame.stack = stack
  | none =>
      let final := (action.perform .stopped).after state
      (∀ scope : ScopeId, scope.index < state.scopes.size → final.scope scope = state.scope scope) ∧
        ∀ other, other ≠ stack → final.operands other = state.operands other

theorem Action.confined_of_direct {action : Action} {stack : StackId} (direct : action.Direct)
    (works : ∀ other, action.stack? = some other → other = stack) (bindsNothing : action.scope? = none)
    (state : State) : action.Confined stack state := by
  rw [Confined, show action.frame? = none from direct]
  dsimp only
  have ends := Moment.after_action 0 action state
  rw [Machine.within] at ends
  generalize (action.perform .stopped).after state = final at ends ⊢
  cases direct.changes ends with
  | marks => exact ⟨fun _ _ => rfl, fun _ _ => rfl⟩
  | operates _ values working =>
      refine ⟨fun _ _ => rfl, fun other apart => State.operands_setOperands_of_ne state (fun same => ?_) values⟩
      exact apart (same.symm.trans (works _ working))
  | binds => cases bindsNothing
  | rebinds => cases bindsNothing
  | opens => exact ⟨fun _ present => State.scope_push_of_lt _ present, fun _ _ => rfl⟩
  | newStack => exact ⟨fun _ _ => rfl, fun other _ => state.operands_push_nil other⟩
  | delays => exact ⟨fun _ _ => rfl, fun _ _ => rfl⟩

/-- From one state to another nothing changes but stacks of one's own, and what there was not before. -/
structure State.Spares (own : StackId → Prop) (before after : State) : Prop where
  scopes : before.scopes.size ≤ after.scopes.size
  operandStacks : before.operandStacks.size ≤ after.operandStacks.size
  scope {scope : ScopeId} : scope.index < before.scopes.size → after.scope scope = before.scope scope
  operands {stack : StackId} : before.HasStack stack → ¬ own stack →
    after.operands stack = before.operands stack

namespace State.Spares

variable {own : StackId → Prop}

theorem refl (state : State) : state.Spares own state :=
  ⟨Nat.le_refl _, Nat.le_refl _, fun _ => rfl, fun _ _ => rfl⟩

theorem trans {first middle last : State} (earlier : first.Spares own middle)
    (later : middle.Spares own last) : first.Spares own last where
  scopes := Nat.le_trans earlier.scopes later.scopes
  operandStacks := Nat.le_trans earlier.operandStacks later.operandStacks
  scope present := by
    rw [later.scope (Nat.lt_of_lt_of_le present earlier.scopes), earlier.scope present]
  operands made other := by
    rw [later.operands (Nat.lt_of_lt_of_le made earlier.operandStacks) other, earlier.operands made other]

theorem setOperands (state : State) {stack : StackId} (mine : own stack) (values : Operands) :
    state.Spares own (state.setOperands stack values) where
  scopes := Nat.le_refl _
  operandStacks := by simp [State.setOperands]
  scope _ := rfl
  operands _ other := by
    refine State.operands_setOperands_of_ne state (fun same => ?_) values
    subst same
    exact other mine

theorem of_confined {budget : Nat} {action : Action} {stack : StackId} {state final : State}
    (direct : action.Direct) (confined : action.Confined stack state) (mine : own stack)
    (ends : Moment.after ⟨budget, .action action, state⟩ = final) : state.Spares own final := by
  have grown := State.Grows.after ⟨budget, .action action, state⟩
  rw [ends] at grown
  rw [Moment.after_action, direct.perform_eq _ .stopped] at ends
  rw [Action.Confined, show action.frame? = none from direct] at confined
  obtain ⟨scopes, others⟩ := confined
  rw [ends] at scopes others
  refine ⟨grown.scopes, grown.operandStacks, scopes _, fun _ other => others _ fun same => ?_⟩
  subst same
  exact other mine

end State.Spares

namespace Moment

def HostsConfined (whole : Moment) : Prop :=
  whole.HostsObey fun frame action state => action.Confined frame.stack state

def Owns (own : StackId → Prop) (moment : Moment) : Prop :=
  moment.Minds (fun frame => own frame.stack) fun frame action state => action.Confined frame.stack state

section Spares

variable {own : StackId → Prop} {whole moment : Moment} {before after : State}

theorem Enters.spares {opened : Scope} {inner : Frame} {start : State}
    (enters : moment.Enters opened inner start) (owns : moment.Owns own) :
    moment.state.Spares own start := by
  have opens := enters.opens
  obtain ⟨target, frame, args, returns, calls, others⟩ := enters.operands
  obtain ⟨budget, activity, state⟩ := moment
  dsimp only at calls
  subst calls
  refine ⟨?_, ?_, opens.scope_old, fun made other => others made fun same => ?_⟩
  · simp [opens.scopes]
  · simp [opens.operandStacks]
  · subst same
    exact other owns

theorem Makes.spares (made : moment.Makes before after) (owns : moment.Owns own)
    (fresh : ∀ {opened inner start}, moment.Enters opened inner start → own inner.stack) :
    before.Spares own after := by
  cases made with
  | marks => exact { State.Spares.refl before with }
  | promises => exact { State.Spares.refl before with }
  | pushes => exact .setOperands before owns _
  | exchanges => exact .setOperands before owns _
  | enters enters => exact enters.spares owns
  | leaves _ _ enters => exact .setOperands before (fresh enters) _
  | resolves => exact { State.Spares.refl before with }
  | acts direct ends =>
      obtain ⟨frame, mine, confined⟩ := owns
      exact .of_confined direct confined mine ends

theorem Leads.spares (confined : whole.HostsConfined) (owns : whole.Owns own)
    (fresh : ∀ stack : StackId, whole.state.operandStacks.size ≤ stack.index → own stack)
    (leads : whole.Leads before after) : before.Spares own after := by
  have opened {moment opened inner start} (reached : whole.Reaches moment)
      (enters : moment.Enters opened inner start) : own inner.stack := by
    refine fresh _ ?_
    rw [enters.opens.stack]
    exact (State.Grows.of_reaches reached).operandStacks
  have passes {frame next : Frame} {action : Action} {state : State}
      (lawful : action.Confined frame.stack state) (goesOn : action.frame? = some next)
      (mine : own frame.stack) : own next.stack := by
    rw [Action.Confined, goesOn] at lawful
    exact lawful ▸ mine
  have effect : Subrelation whole.Effect (State.Spares own) := by
    rintro before after ⟨moment, reached, made⟩
    exact made.spares (reached.minds passes confined opened owns) (opened reached)
  exact leads.keeps effect State.Spares.refl State.Spares.trans

end Spares

end Moment

/-- However a run goes and wherever it fails, each scope that there was has its bindings and its parent throughout, and
each stack but that of the frame its operands, if hosts write no scope and only the stack of their frame. A scope that
a call opens has the bindings of the call, and never others. -/
theorem running_code_rebinds_nothing (budget : Nat) (frame : Frame) (code : List Step) (state : State)
    (confined : Moment.HostsConfined ⟨budget, .steps frame code, state⟩) :
    let whole : Moment := ⟨budget, .steps frame code, state⟩
    (∀ seen, whole.Sees seen →
      (∀ scope : ScopeId, scope.index < state.scopes.size → seen.scope scope = state.scope scope) ∧
      (∀ stack, state.HasStack stack → stack ≠ frame.stack →
        seen.operands stack = state.operands stack) ∧
      ∀ scope : ScopeId, state.scopes.size ≤ scope.index → scope.index < seen.scopes.size →
        ∃ moment, whole.Reaches moment ∧
          ((∃ opened inner start, moment.Enters opened inner start ∧ inner.scope = scope ∧
              seen.scope scope = opened) ∨
            ∃ parent, moment.activity = .action (.newScope parent) ∧ seen.scope scope = ⟨[], parent⟩)) ∧
    ∀ moment opened inner start, whole.Reaches moment → moment.Enters opened inner start →
      state.scopes.size ≤ inner.scope.index ∧ start.scope inner.scope = opened ∧
        whole.after.scope inner.scope = opened := by
  intro whole
  have spares {before after : State} (leads : whole.Leads before after) :
      before.Spares (fun stack => stack = frame.stack ∨ state.operandStacks.size ≤ stack.index) after :=
    leads.spares confined (.inl rfl) fun _ => .inr
  have stays {moment scope added start seen} (adds : Moment.Adds moment scope added start)
      (leads : whole.Leads start seen) : seen.scope scope = added := by
    rw [(spares leads).scope adds.scope_new.1, adds.scope_new.2]
  refine ⟨fun seen sees => ⟨fun scope present => ?_, fun stack made other => ?_,
    fun scope absent present => ?_⟩, fun moment opened inner start reached enters => ⟨?_, ?_, ?_⟩⟩
  · exact (spares sees.leads).scope present
  · refine (spares sees.leads).operands made ?_
    rintro (same | added)
    · exact other same
    · exact absurd made (by simp [State.HasStack]; omega)
  · rcases sees.leads.scope_added present with old | ⟨moment, added, start, reached, adds, leads⟩
    · exact absurd old (Nat.not_lt.mpr absent)
    · have kept := stays adds leads
      refine ⟨moment, reached, ?_⟩
      cases adds with
      | opens enters => exact .inl ⟨_, _, _, enters, rfl, kept⟩
      | makes => exact .inr ⟨_, rfl, kept⟩
  · rw [enters.opens.scope]
    exact (State.Grows.of_reaches reached).scopes
  · exact enters.opens.scope_new
  · exact stays (.opens enters) (enters.leads_end.inside reached |>.trans reached.leads_from)

theorem LibraryHost.confined {host : LibraryHost} (noBind : host ≠ .bind) (noAssign : host ≠ .assign)
    {frame : Frame} {action : Action} (state : State) (takes : host.Takes frame action) :
    action.Confined frame.stack state := by
  cases takes with
  | branches => exact rfl
  | applies => exact rfl
  | evaluates => exact rfl
  | binds => exact absurd rfl noBind
  | assigns => exact absurd rfl noAssign
  | pop => exact Action.confined_of_direct (by rfl) (by rintro _ ⟨⟩; rfl) (by rfl) state
  | popMany => exact Action.confined_of_direct (by rfl) (by rintro _ ⟨⟩; rfl) (by rfl) state
  | push => exact Action.confined_of_direct (by rfl) (by rintro _ ⟨⟩; rfl) (by rfl) state
  | _ => exact Action.confined_of_direct (by rfl) (by rintro _ ⟨⟩) (by rfl) state

def aNumber : Value :=
  ⟨⟨0⟩, .int, .int 3, 0⟩

def selfAdding : State :=
  { State.empty 125 with
    domains := #[⟨standardNames, ⟨⟨0⟩, .null, .null true, 0⟩⟩]
    scopes := #[⟨[("double", .callable (.closure ⟨0⟩
        [.get "x", .get "x", .call "add" (some 2) (some 1)] ["x"])),
      ("add", .callable (.host ⟨0⟩ LibraryHost.add.header))], none⟩]
    operandStacks := #[[], [aNumber]]
    hosts := #[LibraryHost.add.body ⟨0⟩ ⟨0⟩]
    hostMemories := #[.empty] }

def selfAdded : Moment :=
  ⟨9, .steps ⟨⟨0⟩, ⟨0⟩, 0⟩ [.push aNumber, .call "double" (some 1) (some 1)], selfAdding⟩

theorem running_code_rebinds_nothing_when_adding :
    selfAdded.HostsConfined ∧ selfAdded.after.scope ⟨0⟩ = selfAdding.scope ⟨0⟩ ∧
      selfAdded.after.operands ⟨1⟩ = [aNumber] ∧
      ∃ moment opened inner start, selfAdded.Reaches moment ∧ moment.Enters opened inner start ∧
        inner.scope = ⟨1⟩ ∧ selfAdded.after.scope ⟨1⟩ = opened := by
  have confined : selfAdded.HostsConfined := by
    refine Moment.hostsObey_of_library fun body member => ?_
    have same : body = LibraryHost.add.body ⟨0⟩ ⟨0⟩ := by
      simpa [selfAdded, selfAdding] using member
    exact ⟨.add, ⟨0⟩, ⟨0⟩, same, fun frame action state takes =>
      LibraryHost.confined (by decide) (by decide) state takes⟩
  obtain ⟨scopes, operandStacks, opened⟩ :=
    (running_code_rebinds_nothing _ _ _ _ confined).1 _ (Moment.sees_end _)
  have added : selfAdded.after.scopes.size = 2 := rfl
  have bound : (selfAdded.after.scope ⟨1⟩).bindings.length = 1 := rfl
  refine ⟨confined, scopes ⟨0⟩ (by decide), operandStacks ⟨1⟩ (by decide) (by decide), ?_⟩
  obtain ⟨moment, reached, ⟨opened, inner, start, enters, same, kept⟩ | ⟨parent, _, empty⟩⟩ :=
    opened ⟨1⟩ (by decide) (added ▸ by decide)
  · exact ⟨moment, opened, inner, start, reached, enters, same, kept⟩
  · rw [show selfAdded.after.scope ⟨1⟩ = ⟨[], parent⟩ from empty] at bound
    cases bound

end LazyStack
