import LazyStack.Proofs.SessionDeed

/-!
Every value is well tagged, always. A session begins with nothing, and each thing that it makes mirrors itself
from then on, so whatever a value is found in, it mirrors another: its domain has a name for its tag, and its
payload is of the kind that the tag says.
-/

namespace LazyStack

-- Values sit in payloads, in code and in the bodies of closures, and these in values again.
mutual

/-- A value is met in another: as that value itself, or as a part of it at any depth. -/
inductive Value.Inside (value : Value) : Value → Prop
  | itself : Value.Inside value value
  | part {domain tag payload identity} :
      Value.InPayload value payload → Value.Inside value ⟨domain, tag, payload, identity⟩

inductive Value.InPayload (value : Value) : Payload → Prop
  | head {head tail} : Value.Inside value head → Value.InPayload value (.cell head tail)
  | tail {head tail} : Value.Inside value tail → Value.InPayload value (.cell head tail)
  | code {steps} : Value.InCode value steps → Value.InPayload value (.code steps)
  | callable {target} : Value.InCallable value target → Value.InPayload value (.callable target)

inductive Value.InCallable (value : Value) : Callable → Prop
  | body {scope body parameters} :
      Value.InCode value body → Value.InCallable value (.closure scope body parameters)

inductive Value.InCode (value : Value) : List Step → Prop
  | constant {pushed rest} : Value.Inside value pushed → Value.InCode value (.push pushed :: rest)
  | later {step rest} : Value.InCode value rest → Value.InCode value (step :: rest)

end

inductive Value.InBinding (value : Value) : Binding → Prop
  | value {bound} : value.Inside bound → Value.InBinding value (.value bound)
  | callable {target} : value.InCallable target → Value.InBinding value (.callable target)

inductive Session.Holds (session : Session) (value : Value) : Prop
  | stack {stack outer} :
      outer ∈ session.state.operands stack → value.Inside outer → Session.Holds session value
  | scope {scope entry} :
      entry ∈ (session.state.scope scope).bindings → value.InBinding entry.2 → Session.Holds session value
  | result {promise outer} :
      (session.state.promise promise).value = some outer → value.Inside outer → Session.Holds session value
  | body {promise code} :
      (session.state.promise promise).body = some code → value.InCode code → Session.Holds session value
  | null {domain : DomainId} :
      domain.index < session.state.domains.size → value.Inside (session.state.domain domain).null →
      Session.Holds session value
  | register {entry} :
      entry ∈ session.registers.values → value.Inside entry.2 → Session.Holds session value
  | code {entry} : entry ∈ session.registers.codes → value.InCode entry.2 → Session.Holds session value

/-- A value can be relied on to be what its tag says. -/
structure Value.WellTagged (state : State) (value : Value) : Prop where
  named : ∃ name, (state.domain value.domain).names.get? value.tag = some name ∧
    value.typeName state = .ok name state
  kind : value.payload.isInstance value.tag
  expected {tag : Tag} : value.tag = tag →
    ∀ description, value.expect tag description state = .ok value.payload state
  callee : value.tag = .callable → ∀ name, ∃ target, value.payload = .callable target ∧
    (Binding.value value).callee name state = .ok target state

variable {pairs : Counterparts} {inner : Value}

mutual

theorem Value.Inside.mirrors {outer other : Value} :
    inner.Inside outer → outer.Mirrors pairs other → ∃ like, inner.Mirrors pairs like
  | .itself, same => ⟨other, same⟩
  | .part inside, same => inside.mirrors same.payload

theorem Value.InPayload.mirrors {payload other : Payload} :
    inner.InPayload payload → payload.Mirrors pairs other → ∃ like, inner.Mirrors pairs like
  | .head inside, .cell head _ => inside.mirrors head
  | .tail inside, .cell _ tail => inside.mirrors tail
  | .code inside, .code steps => inside.mirrors steps
  | .callable inside, .callable target => inside.mirrors target

theorem Value.InCallable.mirrors {target other : Callable} :
    inner.InCallable target → target.Mirrors pairs other → ∃ like, inner.Mirrors pairs like
  | .body inside, .closure _ body => inside.mirrors body

theorem Value.InCode.mirrors {code other : List Step} :
    inner.InCode code → Code.Mirrors pairs code other → ∃ like, inner.Mirrors pairs like
  | .constant inside, .cons (.push value) _ => inside.mirrors value
  | .later inside, .cons _ rest => inside.mirrors rest

end

theorem Value.InBinding.mirrors {binding other : Binding} (inside : inner.InBinding binding)
    (same : binding.Mirrors pairs other) : ∃ like, inner.Mirrors pairs like := by
  cases inside with
  | value inside => cases same with
      | value bound => exact inside.mirrors bound
  | callable inside => cases same with
      | callable target => exact inside.mirrors target

namespace Value

variable {state : State} {value : Value}

theorem typeName_of_registered {name : String}
    (registered : (state.domain value.domain).names.get? value.tag = some name) :
    value.typeName state = .ok name state := by
  rw [Value.typeName, DomainId.typeName, Run.bind_of_ok (Run.get_apply state), Domain.typeName, registered]
  rfl

theorem callee_of_kind (kind : value.payload.isInstance value.tag) (callable : value.tag = .callable)
    (name : String) : ∃ target, value.payload = .callable target ∧
      (Binding.value value).callee name state = .ok target state := by
  obtain ⟨domain, tag, payload, identity⟩ := value
  subst callable
  have kind := Payload.mem_classes_of_isInstance kind rfl
  cases payload with
  | callable target => exact ⟨target, rfl, rfl⟩
  | _ => simp [Payload.classes] at kind

theorem Mirrors.wellTagged {like : Value} {other : State} (mirrors : state.Mirrors pairs other)
    (same : value.Mirrors pairs like) : value.WellTagged state where
  named := by
    obtain ⟨name, registered⟩ := Option.isSome_iff_exists.mp (mirrors.has same.entry).1
    exact ⟨name, registered, typeName_of_registered registered⟩
  kind := same.isInstance
  expected matching description := value.expect_of_tag description matching
  callee := callee_of_kind same.isInstance

end Value

namespace State

variable {left right : State} (mirrors : left.Mirrors pairs right)
  (covered : ∀ thing, left.Has thing → ∃ other, pairs thing other)
include mirrors covered

-- What is read where a state has nothing mirrors itself.
theorem Mirrors.exists_operands (stack : StackId) : ∃ others, Value.AllMirror pairs (left.operands stack) others := by
  by_cases present : left.HasStack stack
  · obtain ⟨other, paired⟩ := covered (.stack stack) present
    have agree := mirrors.agree paired
    cases other with
    | stack => exact ⟨_, agree⟩
    | _ => exact agree.elim
  · rw [State.operands, Array.getElem?_eq_none (Nat.le_of_not_lt present)]
    exact ⟨[], .nil⟩

theorem Mirrors.exists_scope (scope : ScopeId) :
    (∃ other, (left.scope scope).Mirrors pairs other) ∧ left.ParentOlder scope := by
  by_cases present : left.Has (.scope scope)
  · obtain ⟨other, paired⟩ := covered (.scope scope) present
    have agree := mirrors.agree paired
    cases other with
    | scope => exact ⟨⟨_, agree.1⟩, agree.2.1⟩
    | _ => exact agree.elim
  · rw [ParentOlder, State.scope, Array.getElem?_eq_none (Nat.le_of_not_lt present)]
    refine ⟨⟨⟨[], none⟩, .nil, .none⟩, fun parent outside => ?_⟩
    cases outside

theorem Mirrors.exists_promise (id : PromiseId) : ∃ other, (left.promise id).Mirrors pairs other := by
  by_cases present : left.HasPromise id
  · obtain ⟨other, paired⟩ := covered (.promise id) present
    have agree := mirrors.agree paired
    cases other with
    | promise => exact ⟨_, agree⟩
    | _ => exact agree.elim
  · rw [State.promise, Array.getElem?_eq_none (Nat.le_of_not_lt present)]
    exact ⟨⟨none, some [], none⟩, .none, .some .nil, .none⟩

end State

namespace Session

def Sound (session : Session) : Prop :=
  ∃ pairs, session.Mirrors pairs session ∧ ∀ thing, session.state.Has thing → ∃ other, pairs thing other

variable {session : Session}

theorem Sound.wellTagged (sound : session.Sound) {value : Value} (held : session.Holds value) :
    value.WellTagged session.state := by
  obtain ⟨pairs, mirrors, covered⟩ := sound
  suffices known : ∃ like, value.Mirrors pairs like by
    obtain ⟨_, same⟩ := known
    exact Value.Mirrors.wellTagged mirrors.state same
  cases held with
  | @stack stack outer member inside =>
      obtain ⟨_, alike⟩ := mirrors.state.exists_operands covered stack
      obtain ⟨_, same⟩ := exists_rel_of_mem alike member
      exact inside.mirrors same
  | @scope scope entry member inside =>
      obtain ⟨⟨_, alike⟩, _⟩ := mirrors.state.exists_scope covered scope
      obtain ⟨_, _, same⟩ := exists_rel_of_mem alike.bindings member
      exact inside.mirrors same
  | @result promise outer stored inside =>
      obtain ⟨_, alike⟩ := mirrors.state.exists_promise covered promise
      obtain ⟨_, same⟩ := exists_rel_of_some (stored ▸ alike.value)
      exact inside.mirrors same
  | @body promise code stored inside =>
      obtain ⟨_, alike⟩ := mirrors.state.exists_promise covered promise
      obtain ⟨_, same⟩ := exists_rel_of_some (stored ▸ alike.body)
      exact inside.mirrors same
  | @null domain made inside =>
      obtain ⟨other, paired⟩ := covered (.domain domain) made
      have agree := mirrors.state.agree paired
      cases other with
      | domain => exact inside.mirrors (mirrors.state.domain paired).null
      | _ => exact agree.elim
  | register member inside =>
      obtain ⟨_, _, same⟩ := exists_rel_of_mem mirrors.registers.values member
      exact inside.mirrors same
  | code member inside =>
      obtain ⟨_, _, same⟩ := exists_rel_of_mem mirrors.registers.codes member
      exact inside.mirrors same

theorem sound_start (raw : Option String) (hosts : List LibraryHost) : (start raw hosts).Sound := by
  have prepared : Run.Lockstep False (fun _ _ => False) Registers.Mirrors (prepare hosts) (prepare hosts) :=
    lockstep_prepare hosts
  have together := prepared (mirrors_empty (callLimit raw))
  rw [start]
  generalize prepare hosts (State.empty (callLimit raw)) = outcome at together ⊢
  cases together with
  | ends advance registers =>
      exact ⟨_, ⟨advance.mirrors, registers⟩, fun _ there => (advance.covers there).resolve_left State.not_has_empty⟩
  | fails advance =>
      exact ⟨_, ⟨advance.mirrors, Registers.mirrors_empty⟩,
        fun _ there => (advance.covers there).resolve_left State.not_has_empty⟩

theorem Sound.undertake (sound : session.Sound) {deed : Deed} (plain : deed.Plain) :
    (session.undertake deed.work).2.Sound := by
  obtain ⟨pairs, mirrors, covered⟩ := sound
  obtain ⟨_, wider, advance, registers⟩ :=
    undertake_mirrors mirrors (Deed.lockstep_work deed plain False.elim)
  exact ⟨wider, ⟨advance.mirrors, registers⟩, advance.covers_all covered⟩

theorem Sound.after (sound : session.Sound) {deeds : List Deed} (plain : ∀ deed ∈ deeds, deed.Plain) :
    (session.after deeds).Sound := by
  induction deeds generalizing session with
  | nil => exact sound
  | cons deed rest ih =>
      exact ih (sound.undertake (plain deed List.mem_cons_self))
        fun later member => plain later (List.mem_cons_of_mem deed member)

theorem Sound.names (sound : session.Sound) {deeds : List Deed} (plain : ∀ deed ∈ deeds, deed.Plain)
    {domain : DomainId} {tag : Tag} {name : String}
    (named : (session.state.domain domain).names.get? tag = some name) :
    ((session.after deeds).state.domain domain).names.get? tag = some name := by
  induction deeds generalizing session with
  | nil => exact named
  | cons deed rest ih =>
      have first := plain deed List.mem_cons_self
      refine ih (sound.undertake first) (fun later member => plain later (List.mem_cons_of_mem deed member)) ?_
      obtain ⟨_, mirrors, _⟩ := sound
      obtain ⟨_, _, advance, _⟩ :=
        undertake_mirrors mirrors (Deed.lockstep_work deed first False.elim)
      exact advance.names named

abbrev reached (raw : Option String) (hosts : List LibraryHost) (deeds : List Deed) : Session :=
  (start raw hosts).after deeds

/-- Whatever deeds do, every value that is found in what they have reached is well tagged. A name that a domain
has given to a tag stays, and a different one for the same tag is refused and changes nothing. -/
theorem always_well_tagged (raw : Option String) (hosts : List LibraryHost) {deeds : List Deed}
    (plain : ∀ deed ∈ deeds, deed.Plain) :
    (∀ value, (reached raw hosts deeds).Holds value → value.WellTagged (reached raw hosts deeds).state) ∧
      ∀ domain tag name, ((reached raw hosts deeds).state.domain domain).names.get? tag = some name →
        (∀ further : List Deed, (∀ deed ∈ further, deed.Plain) →
          ((reached raw hosts (deeds ++ further)).state.domain domain).names.get? tag = some name) ∧
        ∀ other, other ≠ name →
          domain.register tag other (reached raw hosts deeds).state =
            .error (.renamed tag name other) (reached raw hosts deeds).state ∧
          (Failure.renamed tag name other).kind = .type := by
  have sound := (sound_start raw hosts).after plain
  refine ⟨fun value => sound.wellTagged, fun domain tag name named => ⟨fun further also => ?_, ?_⟩⟩
  · rw [reached, after_append]
    exact sound.names also named
  · intro other apart
    rw [DomainId.register_apply, named]
    exact ⟨if_neg fun same => apart same.symm, rfl⟩

def namingDeeds : List Deed :=
  [.command ⟨"main", .register "main" .bytes "blob"⟩, .command ⟨"main", .register "main" .bytes "raw"⟩,
    .command ⟨"main", .set (.text "xs") (.list [.plain .int (.int 7), .freshNull] none) false⟩]

theorem well_tagged_after_naming :
    (∀ deed ∈ namingDeeds, deed.Plain) ∧
      (∀ value, (reached none [] namingDeeds).Holds value →
        value.WellTagged (reached none [] namingDeeds).state) ∧
      DomainId.register ⟨0⟩ .bytes "raw" (reached none [] namingDeeds).state =
        .error (.renamed .bytes "blob" "raw") (reached none [] namingDeeds).state := by
  have plain : ∀ deed ∈ namingDeeds, deed.Plain := by
    simp [namingDeeds, Deed.Plain, Command.Plain, ValueSpec.Plain, ValueSpec.AllPlain, Payload.atomic]
  have named : ((reached none [] namingDeeds).state.domain ⟨0⟩).names.get? .bytes = some "blob" := by
    decide +kernel
  obtain ⟨tagged, names⟩ := always_well_tagged none [] plain
  exact ⟨plain, tagged, ((names ⟨0⟩ .bytes "blob" named).2 "raw" (by decide)).1⟩

end Session

end LazyStack
