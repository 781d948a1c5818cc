import LazyStack.Proofs.Construction
import LazyStack.Proofs.Uniformity
import LazyStack.Proofs.LockstepCall

/-!
Domains, hosts and environments in lockstep: how both sides come by them. What is made on the two sides at the
same time stands for each other from then on.
-/

namespace LazyStack

variable {settled : Prop} {pairs : Counterparts}

/-- A domain, its null and its entries stand for those of another. -/
inductive Counterparts.Founded (left right : State) (names : Table Tag String) : Counterparts
  | domain : Founded left right names (.domain ⟨left.domains.size⟩) (.domain ⟨right.domains.size⟩)
  | null : Founded left right names (.identity left.nextIdentity) (.identity right.nextIdentity)
  | entry {tag} : tag ∈ names.keys →
      Founded left right names (.entry ⟨left.domains.size⟩ tag) (.entry ⟨right.domains.size⟩ tag)

inductive Counterparts.Hosted (left right : State) : Counterparts
  | host : Hosted left right (.host ⟨left.hosts.size⟩) (.host ⟨right.hosts.size⟩)
  | memory : Hosted left right (.memory ⟨left.hosts.size⟩) (.memory ⟨right.hosts.size⟩)

namespace State.Mirrors

variable {left right : State} (mirrors : left.Mirrors pairs right)
include mirrors

theorem found {names : Table Tag String} (named : Tag.null ∈ names.keys) :
    State.Advance settled pairs (pairs.join (.Founded left right names)) left right (left.founding names)
      (right.founding names) := by
  refine mirrors.advance (State.becomes_founding left names) (State.becomes_founding right names) ?_ ?_ ?_
    (fun none => by cases none) (fun _ _ none => by cases none)
    (fun _ none => by rcases none with none | none <;> cases none) ?_ ⟨[], [], by simp [State.founding],
      by simp [State.founding], rfl⟩
  · rintro _ _ _ _ ⟨⟩ ⟨⟩ <;> simp
  · rintro _ _ ⟨⟩
    · simp
    · simp
    · simp_all
  · intro thing made
    simp only [List.mem_cons, List.mem_map] at made
    rcases made with rfl | rfl | ⟨tag, known, rfl⟩
    · exact ⟨_, .domain⟩
    · exact ⟨_, .null⟩
    · exact ⟨_, .entry known⟩
  · rintro _ _ ⟨⟩
    · rw [State.Agree, State.domain_founding, State.domain_founding, if_pos rfl, if_pos rfl]
      exact
        { names := rfl
          null := .made (.inr .domain) (.inr (.entry named)) (.inr .null) (by decide) .null
          entries := fun known => .inr (.entry (Table.get?_isSome_iff.mp known)) }
    · trivial
    · exact ⟨rfl, .inr .domain⟩

theorem house {body other : HostBody}
    (same : HostBody.Mirrors (pairs.join (.Hosted left right)) body other) :
    State.Advance settled pairs (pairs.join (.Hosted left right)) left right (left.hosting body)
      (right.hosting other) := by
  refine mirrors.advance (State.becomes_hosting left body) (State.becomes_hosting right other) ?_ ?_ ?_
    (fun none => by cases none) (fun _ _ none => by cases none)
    (fun _ none => by rcases none with none | none <;> cases none) ?_ ⟨[], [], by simp [State.hosting],
      by simp [State.hosting], rfl⟩
  · rintro _ _ _ _ ⟨⟩ ⟨⟩ <;> simp
  · rintro _ _ ⟨⟩ <;> simp
  · intro thing made
    rw [List.mem_pair] at made
    rcases made with rfl | rfl
    · exact ⟨_, .host⟩
    · exact ⟨_, .memory⟩
  · rintro _ _ ⟨⟩
    · rw [State.Agree, State.hostBody_hosting, State.hostBody_hosting, if_pos rfl, if_pos rfl,
        State.memory_hosting, State.memory_hosting, State.memory_of_counted mirrors.counted.1,
        State.memory_of_counted mirrors.counted.2]
      exact ⟨same, rfl, .nil⟩
    · exact Or.inr .host

theorem register (unsettled : ¬ settled) {domain other : DomainId}
    (paired : pairs (.domain domain) (.domain other)) {tag : Tag} (name : String)
    (new : (left.domain domain).names.get? tag = none) :
    State.Advance settled pairs (pairs.join (.one (.entry domain tag) (.entry other tag))) left right
      (left.setDomain domain
        { left.domain domain with names := (left.domain domain).names.put tag name })
      (right.setDomain other
        { right.domain other with names := (right.domain other).names.put tag name }) := by
  have domains := mirrors.domain paired
  obtain ⟨made, there⟩ := mirrors.has paired
  have also : (right.domain other).names.get? tag = none := domains.names ▸ new
  refine mirrors.advance (State.becomes_setDomain made new rfl) (State.becomes_setDomain there also rfl)
    (Counterparts.oneToOne_one _ _) ?_ ?_ ?_ (fun calm => absurd calm unsettled) ?_ ?_
    ⟨[], [], by simp [State.setDomain], by simp [State.setDomain], rfl⟩
  · rintro _ _ ⟨rfl, rfl⟩
    exact ⟨List.mem_singleton_self _, List.mem_singleton_self _⟩
  · intro thing entry
    rw [List.mem_singleton] at entry
    exact ⟨_, entry, rfl⟩
  · intro thing changed
    rw [List.mem_singleton] at changed
    exact ⟨_, changed ▸ paired⟩
  · intro thing like known reached
    rw [List.mem_singleton, List.mem_singleton, mirrors.oneToOne known paired, or_self] at reached
    rw [(mirrors.oneToOne known paired).mpr reached, reached, State.Agree, State.domain_setDomain,
      State.domain_setDomain, if_pos ⟨rfl, made⟩, if_pos ⟨rfl, there⟩]
    have within := pairs.within_join (.one (.entry domain tag) (.entry other tag))
    refine ⟨by rw [domains.names], domains.null.mono within, fun {label} named => ?_⟩
    by_cases same : tag = label
    · exact .inr ⟨same ▸ rfl, same ▸ rfl⟩
    · rw [Table.get?_put_of_ne same] at named
      exact within (domains.entries named)
  · rintro _ _ ⟨rfl, rfl⟩
    exact ⟨rfl, .inl paired⟩

theorem limit (unsettled : ¬ settled) (limit : Nat) :
    State.Advance settled pairs pairs left right { left with callLimit := limit }
      { right with callLimit := limit } where
  within := .refl pairs
  mirrors :=
    { oneToOne := mirrors.oneToOne
      has := fun {thing other} paired => by
        have known := mirrors.has paired
        cases thing <;> cases other <;> exact known
      agree := fun {thing other} paired => by
        have kept {state : State} (thing : Thing) : state.Keeps { state with callLimit := limit } thing := by
          cases thing <;> trivial
        exact (mirrors.agree paired).of_keeps (kept thing) (kept other)
      callLimit := rfl
      counted := mirrors.counted }
  fresh := .inl
  covers {thing} known := .inl (by cases thing <;> exact known)
  grows {thing} known := by cases thing <;> exact known
  growing {thing} known := by cases thing <;> exact known
  spares {thing} _ _ := by cases thing <;> trivial
  bodies _ := rfl
  names known := known
  settles calm := absurd calm unsettled
  messages := ⟨[], [], by simp, by simp, rfl⟩

end State.Mirrors

namespace Run

theorem lockstep_newDomain {names : Table Tag String} (named : Tag.null ∈ names.keys) :
    Lockstep settled pairs (fun wider domain other => wider (.domain domain) (.domain other))
      (newDomain names) (newDomain names) :=
  fun _ _ mirrors => .ends (mirrors.found named) (.inr .domain)

theorem lockstep_newHost {body other : HostId → HostBody}
    (same : ∀ {wider : Counterparts} {id self}, pairs.Within wider → wider (.host id) (.host self) →
      wider (.memory id) (.memory self) → HostBody.Mirrors wider (body id) (other self)) :
    Lockstep settled pairs (fun wider id self => wider (.host id) (.host self)) (newHost body)
      (newHost other) :=
  fun _ _ mirrors =>
    .ends (mirrors.house (same (pairs.within_join _) (.inr .host) (.inr .memory))) (.inr .host)

theorem lockstep_limit (unsettled : ¬ settled) (limit : Nat) :
    Lockstep settled pairs Counterparts.Always (modify fun state => { state with callLimit := limit })
      (modify fun state => { state with callLimit := limit }) :=
  fun _ _ mirrors => .ends (mirrors.limit unsettled limit) trivial

end Run

theorem State.setDomain_domain (state : State) (id : DomainId) :
    state.setDomain id (state.domain id) = state := by
  have same : state.domains.setIfInBounds id.index (state.domain id) = state.domains := by
    by_cases made : id.index < state.domains.size
    · simp [domain, Array.setIfInBounds, made]
    · exact Array.setIfInBounds_eq_of_size_le (by omega)
  rw [setDomain, same]

theorem DomainId.register_apply (domain : DomainId) (tag : Tag) (name : String) (state : State) :
    domain.register tag name state =
      match (state.domain domain).names.get? tag with
      | some existing =>
          if existing = name then .ok name state else .error (.renamed tag existing name) state
      | none => .ok name (state.setDomain domain
          { state.domain domain with names := (state.domain domain).names.put tag name }) := by
  rw [register, Run.bind_of_ok (Run.get_apply state), Domain.register]
  cases (state.domain domain).names.get? tag with
  | none => rfl
  | some existing =>
      dsimp only
      by_cases same : existing = name
      · rw [if_pos same, if_pos same]
        exact congrArg (EStateM.Result.ok name) (state.setDomain_domain domain)
      · rw [if_neg same, if_neg same]
        rfl

theorem DomainId.lockstep_register (unsettled : ¬ settled) {domain other : DomainId}
    (paired : pairs (.domain domain) (.domain other)) (tag : Tag) (name : String) :
    Run.Lockstep settled pairs Counterparts.Same (domain.register tag name) (other.register tag name) := by
  intro left right mirrors
  have names := (mirrors.domain paired).names
  rw [register_apply, register_apply]
  cases named : (left.domain domain).names.get? tag with
  | none =>
      have also : (right.domain other).names.get? tag = none := names ▸ named
      rw [also]
      exact .ends (mirrors.register unsettled paired name named) rfl
  | some existing =>
      have also : (right.domain other).names.get? tag = some existing := names ▸ named
      rw [also]
      dsimp only
      split
      · exact .ends mirrors.stay rfl
      · exact .fails mirrors.stay

namespace Environment

theorem lockstep_over {domain other : DomainId} (paired : pairs (.domain domain) (.domain other)) :
    Run.Lockstep settled pairs Environment.Mirrors (fresh (some domain)) (fresh (some other)) := by
  have chosen : Run.Lockstep settled pairs (fun wider one two => wider (.domain one) (.domain two))
      (pure domain) (pure other) := .pure paired
  refine chosen.bind fun _ paired => ?_
  refine (Run.lockstep_newScope .none).bind fun first scopes => ?_
  refine (ScopeId.lockstep_bind scopes _ (.callable (.makeClosure (first paired)))).bind fun second _ => ?_
  have delays := second scopes
  refine (ScopeId.lockstep_bind delays _ (.callable .delay)).bind fun third _ => ?_
  refine (ScopeId.lockstep_bind (third delays) _ (.callable .force)).bind fun fourth _ => ?_
  have asks := fourth (third delays)
  refine (ScopeId.lockstep_bind asks _ (.callable .isPromise)).bind fun fifth _ => ?_
  exact .pure ⟨fifth (fourth (third (second (first paired)))), fifth asks⟩

theorem lockstep_fresh {domain other : Option DomainId}
    (same : Option.Rel (fun one two => pairs (.domain one) (.domain two)) domain other) :
    Run.Lockstep settled pairs Environment.Mirrors (fresh domain) (fresh other) := by
  cases same with
  | some paired => exact lockstep_over paired
  | none =>
      have named : Tag.null ∈ standardNames.keys := by simp [standardNames, Table.keys]
      exact (Run.lockstep_newDomain named).bind fun _ paired => lockstep_over paired

variable {environment other : Environment} (alike : environment.Mirrors pairs other)
include alike

theorem lockstep_execute {code like : List Step} (same : Code.Mirrors pairs code like) :
    Run.Lockstep settled pairs Value.AllMirror (environment.execute code) (other.execute like) := by
  refine (Run.lockstep_newTopFrame alike.globals).bind fun first frames => ?_
  rw [same.length_eq]
  refine (Run.lockstep_record rfl).bind fun second _ => ?_
  refine (lockstep_runCode (frames.mono second) ((same.mono first).mono second)).bind fun third _ => ?_
  refine Run.Lockstep.get.bind fun fourth mirrors => ?_
  exact .pure (List.forall₂_reverse_iff.mpr (mirrors.operands (fourth (third (second frames.stack)))))

theorem lockstep_evaluate {node like : Node} (same : node.Mirrors pairs like) :
    Run.Lockstep settled pairs Value.AllMirror (environment.evaluate node) (other.evaluate like) :=
  same.lockstep_lower.bind fun within code => lockstep_execute (alike.mono within) code

theorem lockstep_installHost (name : String) (header : HostHeader) {body like : HostId → HostBody}
    (same : ∀ {wider : Counterparts} {id self}, pairs.Within wider → wider (.host id) (.host self) →
      wider (.memory id) (.memory self) → HostBody.Mirrors wider (body id) (like self)) :
    Run.Lockstep settled pairs Counterparts.Always (environment.installHost name header body)
      (other.installHost name header like) :=
  (Run.lockstep_newHost same).bind fun within hosts =>
    ScopeId.lockstep_bind (within alike.globals) name (.callable (.host hosts))

theorem lockstep_installLibraryHost (host : LibraryHost) :
    Run.Lockstep settled pairs Counterparts.Always (environment.installLibraryHost host)
      (other.installLibraryHost host) :=
  lockstep_installHost alike _ _ fun within _ memories => host.body_mirrors (within alike.domain) fun _ => memories

theorem lockstep_ticks : Run.Lockstep settled pairs Counterparts.Same environment.ticks other.ticks := by
  refine (ScopeId.lockstep_lookup alike.globals _).bind fun first found => ?_
  refine (Binding.lockstep_callee found _).bind fun second target => ?_
  cases target with
  | host paired =>
      exact Run.Lockstep.get.bind fun third mirrors => .pure (mirrors.host (third paired)).2.count
  | _ => exact .pure rfl

end Environment

end LazyStack
