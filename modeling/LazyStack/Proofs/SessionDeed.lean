import LazyStack.Session
import LazyStack.Proofs.LockstepCommand

/-!
Deeds: what is asked of a session from outside. Besides the commands, which are performed in an environment
that is there already, a deed may create an environment or install a host of one's own. Two sessions that mirror
each other do so again after one and the same deed, of which they give one and the same account.
-/

namespace LazyStack

/-- A host as its maker writes it: its behaviour, given the domain of the environment it is installed in, the
host itself, and the values that its maker has at hand. -/
abbrev HostMaker := DomainId → HostId → List Value → HostBody

/-- A maker that goes by what it is given: out of like things it makes hosts that behave alike. -/
def HostMaker.Uniform (make : HostMaker) : Prop :=
  ∀ {pairs : Counterparts} {domain other : DomainId} {self like : HostId} {values others : List Value},
    pairs (.domain domain) (.domain other) → pairs (.host self) (.host like) →
    pairs (.memory self) (.memory like) → Value.AllMirror pairs values others →
    HostBody.Mirrors pairs (make domain self values) (make other like others)

theorem LibraryHost.uniform_body (host : LibraryHost) :
    HostMaker.Uniform fun domain self _ => host.body domain self :=
  fun domains _ memories _ => host.body_mirrors domains fun _ => memories

theorem uniform_scriptedBody (pops : Nat) : HostMaker.Uniform fun _ _ values => scriptedBody pops values :=
  fun _ _ _ values => scriptedBody_mirrors pops values

inductive Deed
  | command (step : SessionStep)
  | create (name : String) (domain : Option String)
  | install (environment name : String) (header : HostHeader) (make : HostMaker) (captured : List ValueSpec)

namespace Deed

def work : Deed → Work Reply
  | .command step => Session.work step
  | .create name base => do
      let chosen ← match base with
        | some key => some <$> Work.domain key
        | none => pure none
      let created ← Environment.fresh chosen
      modify fun registers => registers.putEnvironment name created
      return .done
  | .install key name header make captured => do
      let environment ← Run.fetch (← get).environments key
      let values ← captured.mapM (Command.buildValue environment)
      environment.installHost name header fun self => make environment.domain self values
      return .done

/-- A deed refers to nothing but what the registers hold. -/
def Plain : Deed → Prop
  | .command step => step.command.Plain
  | .create _ _ => True
  | .install _ _ _ make captured => make.Uniform ∧ ∀ spec ∈ captured, spec.Plain

def Settled : Deed → Prop
  | .command step => step.command.Settled
  | _ => True

variable {settled : Prop} {pairs : Counterparts}

theorem lockstep_create (name : String) (base : Option String) :
    Work.Lockstep settled pairs Counterparts.Same (work (.create name base)) (work (.create name base)) := by
  have opened {near : Counterparts} {domain like : Option DomainId}
      (same : Option.Rel (fun one two => near (.domain one) (.domain two)) domain like) :
      Work.Lockstep settled near (Counterparts.Same : Counterparts → Reply → Reply → Prop)
        (do
          let created ← Environment.fresh domain
          modify fun registers => registers.putEnvironment name created
          return .done)
        (do
          let created ← Environment.fresh like
          modify fun registers => registers.putEnvironment name created
          return .done) := by
    refine (Work.Lockstep.lift (Environment.lockstep_fresh same)).bind fun _ alike => ?_
    exact (Work.Lockstep.keep fun registers => registers.putEnvironment name alike).bind fun _ _ => .pure rfl
  cases base with
  | none => exact (Work.Lockstep.pure .none).bind fun _ same => opened same
  | some key => exact (Work.lockstep_domain key).some.bind fun _ same => opened same

theorem lockstep_install (key name : String) (header : HostHeader) {make : HostMaker} (uniform : make.Uniform)
    {captured : List ValueSpec} (plain : ∀ spec ∈ captured, spec.Plain) :
    Work.Lockstep settled pairs Counterparts.Same (work (.install key name header make captured))
      (work (.install key name header make captured)) := by
  refine Work.Lockstep.registers.bind fun _ same => ?_
  refine (Work.Lockstep.lift (Run.lockstep_fetch same.environments key)).bind fun _ alike => ?_
  refine (Command.lockstep_buildValues alike plain).bind fun first values => ?_
  refine (Work.Lockstep.lift (Environment.lockstep_installHost (alike.mono first) name header
    fun within hosts memories => uniform (within (first alike.domain)) hosts memories
      (Value.AllMirror.mono within values))).bind fun _ _ => ?_
  exact .pure rfl

theorem lockstep_work (deed : Deed) (plain : deed.Plain) (calm : settled → deed.Settled) :
    Work.Lockstep settled pairs Counterparts.Same deed.work deed.work := by
  cases deed with
  | command step =>
      refine Work.Lockstep.registers.bind fun _ same => ?_
      exact (Work.Lockstep.lift (Run.lockstep_fetch same.environments step.environment)).bind fun _ alike =>
        Command.lockstep_perform alike step.command plain calm
  | create name base => exact lockstep_create name base
  | install key name header make captured => exact lockstep_install key name header plain.1 plain.2

end Deed

namespace Session

def undertake (session : Session) (work : Work Reply) : Outcome × Session :=
  let messages (state : State) := (state.log.toList.drop session.state.log.size).filterMap Event.message
  match work session.registers session.state with
  | .ok (reply, registers) state => (⟨.ok reply, messages state⟩, ⟨state, registers⟩)
  | .error failure state => (⟨.error failure, messages state⟩, ⟨state, session.registers⟩)

theorem perform_eq (session : Session) (step : SessionStep) :
    session.perform step = session.undertake (Deed.command step).work :=
  rfl

def doAll (session : Session) : List Deed → List Outcome × Session
  | [] => ([], session)
  | deed :: rest =>
      let (outcome, next) := session.undertake deed.work
      let (outcomes, last) := next.doAll rest
      (outcome :: outcomes, last)

abbrev after (session : Session) (deeds : List Deed) : Session :=
  (session.doAll deeds).2

theorem after_append (session : Session) (deeds further : List Deed) :
    session.after (deeds ++ further) = (session.after deeds).after further := by
  induction deeds generalizing session with
  | nil => rfl
  | cons deed rest ih => exact ih (session.undertake deed.work).2

theorem performAll_eq (session : Session) (steps : List SessionStep) :
    session.performAll steps = (session.doAll (steps.map .command)).1 := by
  induction steps generalizing session with
  | nil => rfl
  | cons step rest ih => exact congrArg (_ :: ·) (ih (session.perform step).2)

structure Mirrors (pairs : Counterparts) (session other : Session) : Prop where
  state : session.state.Mirrors pairs other.state
  registers : session.registers.Mirrors pairs other.registers

variable {settled : Prop} {pairs : Counterparts}

theorem undertake_mirrors {session other : Session} (mirrors : session.Mirrors pairs other)
    {work also : Work Reply} (same : Work.Lockstep settled pairs Counterparts.Same work also) :
    (session.undertake work).1 = (other.undertake also).1 ∧
      ∃ wider, State.Advance settled pairs wider session.state other.state (session.undertake work).2.state
          (other.undertake also).2.state ∧
        (session.undertake work).2.registers.Mirrors wider (other.undertake also).2.registers := by
  have together := same mirrors.registers mirrors.state
  have told {wider : Counterparts} {after later : State}
      (advance : State.Advance settled pairs wider session.state other.state after later) :
      (after.log.toList.drop session.state.log.size).filterMap Event.message =
        (later.log.toList.drop other.state.log.size).filterMap Event.message := by
    obtain ⟨said, heard, saying, hearing, equal⟩ := advance.messages
    rw [saying, hearing, ← Array.length_toList, ← Array.length_toList, List.drop_left, List.drop_left, equal]
  rw [undertake, undertake]
  generalize work session.registers session.state = outcome at together ⊢
  generalize also other.registers other.state = reached at together ⊢
  cases together with
  | ends advance fits =>
      obtain ⟨replies, registers⟩ := fits
      exact ⟨congrArg₂ Outcome.mk (congrArg Except.ok replies) (told advance), _, advance, registers⟩
  | fails advance =>
      exact ⟨congrArg (Outcome.mk _) (told advance), _, advance, mirrors.registers.mono advance.within⟩

theorem mirrors_empty (limit : Nat) :
    (State.empty limit).Mirrors (fun _ _ => False) (State.empty limit) where
  oneToOne _ _ _ _ none := none.elim
  has none := none.elim
  agree none := none.elim
  callLimit := rfl
  counted := ⟨rfl, rfl⟩

theorem lockstep_prepare (hosts : List LibraryHost) :
    Run.Lockstep settled pairs Registers.Mirrors (prepare hosts) (prepare hosts) := by
  have installed {near : Counterparts} {created like : Environment} (alike : created.Mirrors near like) :
      Run.Lockstep settled near Counterparts.Always (hosts.forM fun host => created.installLibraryHost host)
        (hosts.forM fun host => like.installLibraryHost host) := by
    induction hosts generalizing near with
    | nil => exact .pure trivial
    | cons host hosts ih =>
        exact (Environment.lockstep_installLibraryHost alike host).bind fun within _ => ih (alike.mono within)
  refine (Environment.lockstep_fresh .none).bind fun _ alike => ?_
  refine (installed alike).bind fun within _ => ?_
  exact .pure (Registers.mirrors_empty.putEnvironment mainName (alike.mono within))

end Session

end LazyStack
