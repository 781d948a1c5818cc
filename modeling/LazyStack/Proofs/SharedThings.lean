import LazyStack.Proofs.SessionDeed

/-!
What there is in common before anyone begins: domains, the names that these register, and hosts that keep no
count. None of them changes as long as no name is registered, so that any number of parties may share them.
-/

namespace LazyStack

/-- A thing that many may share, as nothing that they do changes it. -/
def Thing.Steady : Thing → Prop
  | .domain _ => True
  | .entry _ _ => True
  | .host _ => True
  | .identity _ => True
  | _ => False

namespace State

def common (state : State) : Counterparts :=
  fun thing other => thing = other ∧ state.Has thing ∧ thing.Steady

variable {before after : State} {touched made : List Thing}

theorem Becomes.within_common (becomes : before.Becomes touched made after) :
    before.common.Within after.common :=
  fun _ _ paired => ⟨paired.1, becomes.has.mpr (.inl paired.2.1), paired.2.2⟩

theorem Becomes.common (becomes : before.Becomes touched made after)
    (mirrors : before.Mirrors before.common before)
    (agree : ∀ {thing : Thing}, thing.Steady → thing ∈ touched ∨ thing ∈ made → after.Has thing →
      after.Agree after.common after thing thing) : after.Mirrors after.common after where
  oneToOne := by
    rintro _ _ _ _ ⟨rfl, _⟩ ⟨rfl, _⟩
    exact Iff.rfl
  has := by
    rintro _ _ ⟨rfl, there, _⟩
    exact ⟨there, there⟩
  agree := by
    rintro thing _ ⟨rfl, there, steady⟩
    by_cases reached : thing ∈ touched ∨ thing ∈ made
    · exact agree steady reached there
    · rw [not_or] at reached
      have known := (becomes.has.mp there).resolve_right reached.2
      have kept := becomes.keeps known reached.1
      exact ((mirrors.agree ⟨rfl, known, steady⟩).of_keeps kept kept).mono becomes.within_common
  callLimit := rfl
  counted := ⟨becomes.counted mirrors.counted.1, becomes.counted mirrors.counted.1⟩

section Changes

variable {state : State} (mirrors : state.Mirrors state.common state)
include mirrors

theorem common_identifying : state.identifying.Mirrors state.identifying.common state.identifying := by
  refine (becomes_identifying state).common mirrors fun {thing} _ reached there => ?_
  rcases reached with touched | made
  · cases touched
  · rw [List.mem_singleton] at made
    subst made
    trivial

theorem common_founding {names : Table Tag String} (named : Tag.null ∈ names.keys) :
    (state.founding names).Mirrors (state.founding names).common (state.founding names) := by
  have becomes := becomes_founding state names
  have has {thing : Thing} (made : thing = .domain ⟨state.domains.size⟩ ∨
      thing = .identity state.nextIdentity ∨
      ∃ tag ∈ names.keys, thing = .entry ⟨state.domains.size⟩ tag) : (state.founding names).Has thing := by
    refine becomes.has.mpr (.inr ?_)
    rcases made with rfl | rfl | ⟨tag, known, rfl⟩
    · exact List.mem_cons_self
    · exact List.mem_cons_of_mem _ List.mem_cons_self
    · exact List.mem_cons_of_mem _ (List.mem_cons_of_mem _ (List.mem_map_of_mem known))
  have domain := has (.inl rfl)
  refine becomes.common mirrors fun {thing} _ reached there => ?_
  rcases reached with touched | made
  · cases touched
  · simp only [List.mem_cons, List.mem_map] at made
    rcases made with rfl | rfl | ⟨tag, known, rfl⟩
    · rw [Agree, domain_founding, if_pos rfl]
      exact
        { names := rfl
          null := .made ⟨rfl, domain, trivial⟩ ⟨rfl, has (.inr (.inr ⟨_, named, rfl⟩)), trivial⟩
            ⟨rfl, has (.inr (.inl rfl)), trivial⟩ (by decide) .null
          entries := fun known =>
            ⟨rfl, has (.inr (.inr ⟨_, Table.get?_isSome_iff.mp known, rfl⟩)), trivial⟩ }
    · trivial
    · exact ⟨rfl, rfl, domain, trivial⟩

theorem common_hosting {body : HostBody}
    (same : HostBody.Mirrors (state.hosting body).common body body) :
    (state.hosting body).Mirrors (state.hosting body).common (state.hosting body) := by
  refine (becomes_hosting state body).common mirrors fun {thing} steady reached there => ?_
  rcases reached with touched | made
  · cases touched
  · rw [List.mem_pair] at made
    rcases made with rfl | rfl
    · rw [Agree, hostBody_hosting, if_pos rfl, memory_hosting, memory_of_counted mirrors.counted.1]
      exact ⟨same, rfl, .nil⟩
    · exact steady.elim

theorem common_registering {domain : DomainId} (present : state.Has (.domain domain)) {tag : Tag} (name : String)
    (new : (state.domain domain).names.get? tag = none) :
    let later := state.setDomain domain
      { state.domain domain with names := (state.domain domain).names.put tag name }
    later.Mirrors later.common later := by
  intro later
  have becomes : state.Becomes [.domain domain] [.entry domain tag] later := becomes_setDomain present new rfl
  have domains : (state.domain domain).Mirrors state.common domain domain (state.domain domain) :=
    mirrors.agree ⟨rfl, present, trivial⟩
  have still : later.common (.domain domain) (.domain domain) :=
    ⟨rfl, becomes.has.mpr (.inl present), trivial⟩
  refine becomes.common mirrors fun {thing} _ reached there => ?_
  rcases reached with touched | made
  · rw [List.mem_singleton] at touched
    subst touched
    have content : later.domain domain =
        { state.domain domain with names := (state.domain domain).names.put tag name } := by
      rw [domain_setDomain, if_pos ⟨rfl, present⟩]
    rw [Agree, content]
    refine ⟨rfl, domains.null.mono becomes.within_common, fun {label} named => ⟨rfl, ?_, trivial⟩⟩
    rw [Has, content]
    exact named
  · rw [List.mem_singleton] at made
    subst made
    exact ⟨rfl, still⟩

end Changes

end State

def HostMaker.Stateless (make : HostMaker) : Prop :=
  ∀ {pairs : Counterparts} {domain other : DomainId} {self like : HostId},
    pairs (.domain domain) (.domain other) → pairs (.host self) (.host like) →
    HostBody.Mirrors pairs (make domain self []) (make other like [])

theorem LibraryHost.stateless_body {host : LibraryHost} (ne : host ≠ .tick) :
    HostMaker.Stateless fun domain self _ => host.body domain self :=
  fun domains _ => host.body_mirrors domains fun same => absurd same ne

/-- What is got ready for all to share. A host is kept as a value of its domain. -/
inductive Provision
  | domain (name : String) (standard : Bool)
  | register (domain : String) (tag : Tag) (name : String)
  | host (name domain : String) (header : HostHeader) (make : HostMaker)

namespace Provision

def work : Provision → Work Reply
  | .domain name standard => do
      let created ← if standard then Run.newStandardDomain else Run.newBareDomain
      modify fun registers => registers.putDomain name created
      return .done
  | .register key tag name => do
      return .text (← (← Work.domain key).register tag name)
  | .host name key header make => do
      let domain ← Work.domain key
      let id ← Run.newHost fun self => make domain self []
      let value ← domain.create .callable (.callable (.host id header))
      Work.keepValue (some name) value
      return .done

def Stateless : Provision → Prop
  | .host _ _ _ make => make.Stateless
  | _ => True

end Provision

namespace Work

variable {α β : Type} (registers : Registers) (state : State)

theorem lift_bind (run : Run α) (next : α → Work β) :
    (do next (← run) : Work β) registers state =
      match run state with
      | .ok result after => next result registers after
      | .error failure after => .error failure after := by
  change ((run >>= fun result => pure (result, registers)) >>= fun reached => next reached.1 reached.2) state = _
  rw [Run.bind_apply, Run.bind_apply]
  cases run state <;> rfl

theorem domain_bind (key : String) (next : DomainId → Work α) :
    (do next (← domain key) : Work α) registers state =
      match registers.domains.get? key with
      | some id => next id registers state
      | none => .error (.unknownRegister key) state := by
  refine (lift_bind registers state (Run.fetch registers.domains key) next).trans ?_
  rw [Run.fetch]
  cases registers.domains.get? key <;> rfl

end Work

def Session.ground (raw : Option String) (provisions : List Provision) : Session :=
  provisions.foldl (fun session provision => (session.undertake provision.work).2)
    ⟨State.empty (callLimit raw), .empty⟩

namespace Session

/-- The common things of a session are in order, and its registers hold nothing else. -/
def Common (session : Session) : Prop :=
  session.Mirrors session.state.common session

variable {session : Session}

theorem Common.grow (common : session.Common) {touched made : List Thing} {after : State}
    (becomes : session.state.Becomes touched made after) (mirrors : after.Mirrors after.common after) :
    Common ⟨after, session.registers⟩ :=
  ⟨mirrors, common.registers.mono becomes.within_common⟩

theorem Common.domain (common : session.Common) (name : String) (standard : Bool) :
    (session.undertake (Provision.domain name standard).work).2.Common := by
  obtain ⟨state, registers⟩ := session
  have founded {names : Table Tag String} (named : Tag.null ∈ names.keys) :
      Common ⟨state.founding names, registers.putDomain name ⟨state.domains.size⟩⟩ := by
    have becomes := State.becomes_founding state names
    have grown := common.grow becomes (State.common_founding common.state named)
    exact ⟨grown.state, grown.registers.putDomain name
      ⟨rfl, becomes.has.mpr (.inr List.mem_cons_self), trivial⟩⟩
  cases standard with
  | true =>
      have named : Tag.null ∈ standardNames.keys := by simp [standardNames, Table.keys]
      exact founded named
  | false =>
      have named : Tag.null ∈ Table.keys [(Tag.null, "null")] := by simp [Table.keys]
      exact founded named

theorem Common.register (common : session.Common) (key : String) (tag : Tag) (name : String) :
    (session.undertake (Provision.register key tag name).work).2.Common := by
  obtain ⟨state, registers⟩ := session
  have same := common.registers.domains.get? key
  have done := Work.domain_bind registers state key fun id =>
    (do return .text (← id.register tag name) : Work Reply)
  cases found : registers.domains.get? key with
  | none =>
      rw [found] at done
      rw [Session.undertake, Provision.work, done]
      exact common
  | some id =>
      rw [found] at same done
      obtain ⟨_, equal, present, _⟩ := exists_rel_of_some same
      have registered := Work.lift_bind registers state (id.register tag name) fun text =>
        (pure (.text text) : Work Reply)
      rw [Session.undertake, Provision.work, done]
      dsimp only
      rw [registered, DomainId.register_apply]
      cases named : (state.domain id).names.get? tag with
      | none =>
          exact common.grow (State.becomes_setDomain present named rfl)
            (State.common_registering common.state present name named)
      | some existing =>
          dsimp only
          by_cases same : existing = name
          · rw [if_pos same]
            exact common
          · rw [if_neg same]
            exact common

theorem Common.host (common : session.Common) (name key : String) (header : HostHeader) {make : HostMaker}
    (stateless : make.Stateless) :
    (session.undertake (Provision.host name key header make).work).2.Common := by
  obtain ⟨state, registers⟩ := session
  have same := common.registers.domains.get? key
  have done := Work.domain_bind registers state key fun id =>
    (do
      let self ← Run.newHost fun self => make id self []
      let value ← id.create .callable (.callable (.host self header))
      Work.keepValue (some name) value
      return .done : Work Reply)
  cases found : registers.domains.get? key with
  | none =>
      rw [found] at done
      rw [Session.undertake, Provision.work, done]
      exact common
  | some id =>
      rw [found] at same done
      obtain ⟨_, _, present, _⟩ := exists_rel_of_some same
      have hosting := State.becomes_hosting state (make id ⟨state.hosts.size⟩ [])
      have domains : (state.hosting (make id ⟨state.hosts.size⟩ [])).common (.domain id) (.domain id) :=
        ⟨rfl, hosting.has.mpr (.inl present), trivial⟩
      have hosts : (state.hosting (make id ⟨state.hosts.size⟩ [])).common (.host ⟨state.hosts.size⟩)
          (.host ⟨state.hosts.size⟩) :=
        ⟨rfl, hosting.has.mpr (.inr List.mem_cons_self), trivial⟩
      have housed := common.grow hosting (State.common_hosting common.state (stateless domains hosts))
      have kept := Work.lift_bind registers (state.hosting (make id ⟨state.hosts.size⟩ []))
        (id.create .callable (.callable (.host ⟨state.hosts.size⟩ header))) fun value =>
          (do Work.keepValue (some name) value; return .done : Work Reply)
      have whole : (Provision.host name key header make).work registers state = _ := done.trans kept
      rw [Session.undertake, whole, DomainId.create_apply]
      generalize state.hosting (make id ⟨state.hosts.size⟩ []) = later at domains hosts housed
      cases named : (later.domain id).names.get? .callable with
      | none => exact housed
      | some label =>
          have identifying := State.becomes_identifying later
          have grown := housed.grow identifying (State.common_identifying housed.state)
          have fits := Callable.fits_callable (.host ⟨state.hosts.size⟩ header)
          have entry : later.common (.entry id .callable) (.entry id .callable) :=
            ⟨rfl, Option.isSome_of_eq_some named, trivial⟩
          have within := identifying.within_common
          dsimp only
          rw [if_pos fits]
          exact ⟨grown.state, grown.registers.putValue name
            (.made (within domains) (within entry)
              ⟨rfl, identifying.has.mpr (.inr (List.mem_singleton_self _)), trivial⟩ fits
              (.callable (.host (within hosts))))⟩

theorem Common.undertake (common : session.Common) {provision : Provision} (stateless : provision.Stateless) :
    (session.undertake provision.work).2.Common := by
  cases provision with
  | domain name standard => exact common.domain name standard
  | register key tag name => exact common.register key tag name
  | host name key header make => exact common.host name key header stateless

theorem common_ground (raw : Option String) {provisions : List Provision}
    (stateless : ∀ provision ∈ provisions, provision.Stateless) : (ground raw provisions).Common := by
  have empty : Common ⟨State.empty (callLimit raw), .empty⟩ := by
    refine ⟨⟨?_, ?_, ?_, rfl, rfl, rfl⟩, Registers.mirrors_empty⟩
    · rintro _ _ _ _ ⟨rfl, _⟩ ⟨rfl, _⟩
      exact Iff.rfl
    · rintro _ _ ⟨rfl, there, _⟩
      exact ⟨there, there⟩
    · rintro _ _ ⟨rfl, there, _⟩
      exact absurd there State.not_has_empty
  rw [ground]
  generalize (⟨State.empty (callLimit raw), .empty⟩ : Session) = session at empty ⊢
  induction provisions generalizing session with
  | nil => exact empty
  | cons provision rest ih =>
      exact ih (fun later member => stateless later (List.mem_cons_of_mem provision member)) _
        (empty.undertake (stateless provision List.mem_cons_self))

end Session

end LazyStack
