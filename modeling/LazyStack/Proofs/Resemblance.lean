import LazyStack.Proofs.Change
import LazyStack.Proofs.Wording

/-!
States that mirror each other. Each thing of one state stands for one of the other, the two hold like
contents, and what they lead to is paired again. Things of the other state that stand for nothing are of no
concern, so that the one state may be a part of the other.
-/

namespace LazyStack

abbrev Counterparts.Always {α β : Type} : Counterparts → α → β → Prop :=
  fun _ _ _ => True

abbrev Counterparts.Same {α : Type} : Counterparts → α → α → Prop :=
  fun _ => Eq

abbrev Value.AllMirror (pairs : Counterparts) : List Value → List Value → Prop :=
  List.Forall₂ (Value.Mirrors pairs)

section Programs

variable (pairs : Counterparts)

/-- An action is asked for on both sides, and in what sense its replies are going to be alike. -/
inductive Action.Mirrors : (action other : Action) → (Counterparts → action.Reply → other.Reply → Prop) → Prop
  | pop {stack other} :
      pairs (.stack stack) (.stack other) → Action.Mirrors (.pop stack) (.pop other) Value.Mirrors
  | popMany {stack other count} :
      pairs (.stack stack) (.stack other) →
      Action.Mirrors (.popMany stack count) (.popMany other count) Value.AllMirror
  | push {stack other value like} :
      pairs (.stack stack) (.stack other) → value.Mirrors pairs like →
      Action.Mirrors (.push stack value) (.push other like) Counterparts.Always
  | bind {scope other name binding like} :
      pairs (.scope scope) (.scope other) → binding.Mirrors pairs like →
      Action.Mirrors (.bind scope name binding) (.bind other name like) Counterparts.Always
  | rebind {scope other name binding like} :
      pairs (.scope scope) (.scope other) → binding.Mirrors pairs like →
      Action.Mirrors (.rebind scope name binding) (.rebind other name like) Counterparts.Always
  | call {target other frame caller args returns} :
      target.Mirrors pairs other → frame.Mirrors pairs caller →
      Action.Mirrors (.call target frame args returns) (.call other caller args returns) Counterparts.Always
  | run {code other frame caller} :
      Code.Mirrors pairs code other → frame.Mirrors pairs caller →
      Action.Mirrors (.run code frame) (.run other caller) Counterparts.Always
  | create {domain other tag payload like} :
      pairs (.domain domain) (.domain other) → payload.Mirrors pairs like →
      Action.Mirrors (.create domain tag payload) (.create other tag like) Value.Mirrors
  | nullOf {domain other} :
      pairs (.domain domain) (.domain other) → Action.Mirrors (.nullOf domain) (.nullOf other) Value.Mirrors
  | newScope {parent around} :
      Option.Rel (fun one two => pairs (.scope one) (.scope two)) parent around →
      Action.Mirrors (.newScope parent) (.newScope around) fun wider one two => wider (.scope one) (.scope two)
  | newStack :
      Action.Mirrors .newStack .newStack fun wider one two => wider (.stack one) (.stack two)
  | newPromise {scope other body like} :
      pairs (.scope scope) (.scope other) → Code.Mirrors pairs body like →
      Action.Mirrors (.newPromise scope body) (.newPromise other like)
        fun wider one two => wider (.promise one) (.promise two)
  | expect {value like tag description} :
      value.Mirrors pairs like →
      Action.Mirrors (.expect value tag description) (.expect like tag description) Payload.Mirrors
  | count {host other} :
      pairs (.memory host) (.memory other) → Action.Mirrors (.count host) (.count other)
        (Counterparts.Same : Counterparts → Nat → Nat → Prop)
  | keep {host other frame caller} :
      pairs (.memory host) (.memory other) → frame.Mirrors pairs caller →
      Action.Mirrors (.keep host frame) (.keep other caller) Counterparts.Always
  | kept {host other} :
      pairs (.memory host) (.memory other) →
      Action.Mirrors (.kept host) (.kept other) fun wider => List.Forall₂ (Frame.Mirrors wider)
  | valueText {value like} :
      value.Mirrors pairs like →
      Action.Mirrors (.valueText value) (.valueText like)
        (Counterparts.Same : Counterparts → String → String → Prop)
  | scopeText {scope other} :
      pairs (.scope scope) (.scope other) →
      Action.Mirrors (.scopeText scope) (.scopeText other)
        (Counterparts.Same : Counterparts → String → String → Prop)

inductive Attempted {α β : Type} (alike : α → β → Prop) : Except Failure α → Except Failure β → Prop
  | ok {reply answer} : alike reply answer → Attempted alike (.ok reply) (.ok answer)
  | error {failure} : Attempted alike (.error failure) (.error failure)

end Programs

/-- Programs that ask for like actions, and go on alike as long as they get like replies. -/
inductive Program.Mirrors {α β : Type} (fit : Counterparts → α → β → Prop) :
    Counterparts → Program α → Program β → Prop
  | done {pairs result answer} :
      fit pairs result answer → Program.Mirrors fit pairs (.done result) (.done answer)
  | fail {pairs failure} : Program.Mirrors fit pairs (.fail failure) (.fail failure)
  | act {pairs action other replies next rest} :
      Action.Mirrors pairs action other replies →
      (∀ {wider reply answer}, pairs.Within wider → replies wider reply answer →
        Program.Mirrors fit wider (next reply) (rest answer)) →
      Program.Mirrors fit pairs (.act action next) (.act other rest)
  | attempt {pairs action other replies next rest} :
      Action.Mirrors pairs action other replies →
      (∀ {wider outcome answer}, pairs.Within wider → Attempted (replies wider) outcome answer →
        Program.Mirrors fit wider (next outcome) (rest answer)) →
      Program.Mirrors fit pairs (.attempt action next) (.attempt other rest)

structure HostBody.Mirrors (pairs : Counterparts) (body other : HostBody) : Prop where
  behaves {wider : Counterparts} {frame caller : Frame} {args returns : Option Int} :
    pairs.Within wider → frame.Mirrors wider caller →
    Program.Mirrors Counterparts.Always wider (body frame args returns) (other caller args returns)

theorem HostBody.Mirrors.mono {pairs wider : Counterparts} (within : pairs.Within wider)
    {body other : HostBody} (same : HostBody.Mirrors pairs body other) : HostBody.Mirrors wider body other :=
  ⟨fun further => same.behaves (within.trans further)⟩

structure Domain.Mirrors (pairs : Counterparts) (id other : DomainId) (domain like : Domain) : Prop where
  names : domain.names = like.names
  null : domain.null.Mirrors pairs like.null
  entries {tag : Tag} : (domain.names.get? tag).isSome → pairs (.entry id tag) (.entry other tag)

namespace State

def ParentOlder (state : State) (scope : ScopeId) : Prop :=
  ∀ parent, (state.scope scope).parent = some parent → parent.index < scope.index

def Agree (pairs : Counterparts) (left right : State) : Thing → Thing → Prop
  | .domain id, .domain other => (left.domain id).Mirrors pairs id other (right.domain other)
  | .entry domain tag, .entry other like => tag = like ∧ pairs (.domain domain) (.domain other)
  | .scope id, .scope other =>
      (left.scope id).Mirrors pairs (right.scope other) ∧ left.ParentOlder id ∧ right.ParentOlder other
  | .stack id, .stack other => Value.AllMirror pairs (left.operands id) (right.operands other)
  | .promise id, .promise other => (left.promise id).Mirrors pairs (right.promise other)
  | .host id, .host other =>
      HostBody.Mirrors pairs (left.hostBody id) (right.hostBody other) ∧
        (left.memory id).Mirrors pairs (right.memory other)
  | .memory id, .memory other => pairs (.host id) (.host other)
  | .identity _, .identity _ => True
  | _, _ => False

structure Mirrors (pairs : Counterparts) (left right : State) : Prop where
  oneToOne : pairs.OneToOne
  has {thing other : Thing} : pairs thing other → left.Has thing ∧ right.Has other
  agree {thing other : Thing} : pairs thing other → left.Agree pairs right thing other
  callLimit : left.callLimit = right.callLimit
  counted : left.hostMemories.size = left.hosts.size ∧ right.hostMemories.size = right.hosts.size

end State

theorem Domain.Mirrors.mono {pairs wider : Counterparts} (within : pairs.Within wider) {id other : DomainId}
    {domain like : Domain} (same : domain.Mirrors pairs id other like) :
    domain.Mirrors wider id other like where
  names := same.names
  null := same.null.mono within
  entries known := within (same.entries known)

theorem Value.AllMirror.mono {pairs wider : Counterparts} (within : pairs.Within wider)
    {values others : List Value} (same : Value.AllMirror pairs values others) :
    Value.AllMirror wider values others :=
  List.Forall₂.imp (fun _ _ value => value.mono within) same

namespace State

variable {pairs wider : Counterparts} {left right after later : State} {thing other : Thing}

theorem Agree.mono (within : pairs.Within wider) (agree : left.Agree pairs right thing other) :
    left.Agree wider right thing other := by
  cases thing <;> cases other <;> try exact agree.elim
  case domain.domain => exact Domain.Mirrors.mono within agree
  case entry.entry => exact ⟨agree.1, within agree.2⟩
  case scope.scope => exact ⟨agree.1.mono within, agree.2⟩
  case stack.stack => exact Value.AllMirror.mono within agree
  case promise.promise => exact Promise.Mirrors.mono within agree
  case host.host => exact ⟨agree.1.mono within, agree.2.mono within⟩
  case memory.memory => exact within agree
  case identity.identity => trivial

theorem Agree.of_keeps (agree : left.Agree pairs right thing other) (kept : left.Keeps after thing)
    (also : right.Keeps later other) : after.Agree pairs later thing other := by
  cases thing <;> cases other <;> try exact agree.elim
  case domain.domain =>
    rw [Agree, kept, also]
    exact agree
  case entry.entry => exact agree
  case scope.scope =>
    rw [Agree, ParentOlder, ParentOlder, kept, also]
    exact agree
  case stack.stack =>
    rw [Agree, kept, also]
    exact agree
  case promise.promise =>
    rw [Agree, kept, also]
    exact agree
  case host.host =>
    rw [Agree, kept.1, also.1, kept.2, also.2]
    exact agree
  case memory.memory => exact agree
  case identity.identity => trivial

/-- Two states that mirror each other go on together: what they make at the same time is paired, and both say the same.
As long as matters are settled, the domains and the limit on depth stay as they are. -/
structure Advance (settled : Prop) (pairs wider : Counterparts) (left right after later : State) : Prop where
  within : pairs.Within wider
  mirrors : after.Mirrors wider later
  fresh {thing other : Thing} :
    wider thing other → pairs thing other ∨ ¬ left.Has thing ∧ ¬ right.Has other
  covers {thing : Thing} : after.Has thing → left.Has thing ∨ ∃ other, wider thing other
  grows {thing : Thing} : left.Has thing → after.Has thing
  growing {thing : Thing} : right.Has thing → later.Has thing
  spares {other : Thing} : right.Has other → (∀ mine, ¬ pairs mine other) → right.Keeps later other
  bodies {id : HostId} : right.Has (.host id) → later.hostBody id = right.hostBody id
  names {id : DomainId} {tag : Tag} {name : String} :
    (right.domain id).names.get? tag = some name → (later.domain id).names.get? tag = some name
  settles : settled → later.callLimit = right.callLimit ∧
    ∀ id, right.Has (.domain id) → later.domain id = right.domain id
  messages : ∃ said heard : List Event,
    after.log.toList = left.log.toList ++ said ∧ later.log.toList = right.log.toList ++ heard ∧
      said.filterMap Event.message = heard.filterMap Event.message

variable {settled : Prop}

theorem Mirrors.stay (mirrors : left.Mirrors pairs right) : Advance settled pairs pairs left right left right where
  within := .refl pairs
  mirrors := mirrors
  fresh := .inl
  covers := .inl
  grows known := known
  growing known := known
  spares _ _ := Keeps.refl right _
  bodies _ := rfl
  names known := known
  settles _ := ⟨rfl, fun _ _ => rfl⟩
  messages := ⟨[], [], by simp, by simp, rfl⟩

theorem Advance.trans {middle : Counterparts} {last final : State}
    (first : Advance settled pairs middle left right after later)
    (second : Advance settled middle wider after later last final) :
    Advance settled pairs wider left right last final where
  within := first.within.trans second.within
  mirrors := second.mirrors
  fresh paired := by
    rcases second.fresh paired with known | ⟨new, made⟩
    · exact first.fresh known
    · exact .inr ⟨fun there => new (first.grows there), fun there => made (first.growing there)⟩
  covers there := by
    rcases second.covers there with known | paired
    · rcases first.covers known with old | ⟨other, paired⟩
      · exact .inl old
      · exact .inr ⟨other, second.within paired⟩
    · exact .inr paired
  grows known := second.grows (first.grows known)
  growing known := second.growing (first.growing known)
  spares there apart := by
    refine (first.spares there apart).trans (second.spares (first.growing there) fun mine paired => ?_)
    rcases first.fresh paired with known | ⟨_, made⟩
    · exact apart mine known
    · exact made there
  bodies there := (second.bodies (first.growing there)).trans (first.bodies there)
  names known := second.names (first.names known)
  settles calm := by
    obtain ⟨limit, domains⟩ := first.settles calm
    obtain ⟨further, more⟩ := second.settles calm
    exact ⟨further.trans limit, fun id there => (more id (first.growing there)).trans (domains id there)⟩
  messages := by
    obtain ⟨said, heard, saying, hearing, same⟩ := first.messages
    obtain ⟨more, further, speaking, listening, also⟩ := second.messages
    refine ⟨said ++ more, heard ++ further, ?_, ?_, ?_⟩
    · rw [speaking, saying, List.append_assoc]
    · rw [listening, hearing, List.append_assoc]
    · rw [List.filterMap_append, List.filterMap_append, same, also]

theorem Advance.covers_all (advance : Advance settled pairs wider left right after later)
    (covered : ∀ thing, left.Has thing → ∃ other, pairs thing other) (thing : Thing) (there : after.Has thing) :
    ∃ other, wider thing other := by
  rcases advance.covers there with known | paired
  · obtain ⟨other, paired⟩ := covered thing known
    exact ⟨other, advance.within paired⟩
  · exact paired

theorem Mirrors.advance (mirrors : left.Mirrors pairs right) {news : Counterparts}
    {touched changed made fresh : List Thing} (leaves : left.Becomes touched made after)
    (arrives : right.Becomes changed fresh later) (oneToOne : news.OneToOne)
    (within : ∀ {thing other}, news thing other → thing ∈ made ∧ other ∈ fresh)
    (covers : ∀ {thing}, thing ∈ made → ∃ other, news thing other)
    (meant : ∀ {other}, other ∈ changed → ∃ mine, pairs mine other)
    (calm : settled → ∀ id, Thing.domain id ∉ changed)
    (agree : ∀ {thing other}, pairs thing other → thing ∈ touched ∨ other ∈ changed →
      after.Agree (pairs.join news) later thing other)
    (also : ∀ {thing other}, news thing other → after.Agree (pairs.join news) later thing other)
    (spoken : ∃ said heard : List Event, after.log.toList = left.log.toList ++ said ∧
      later.log.toList = right.log.toList ++ heard ∧ said.filterMap Event.message = heard.filterMap Event.message) :
    Advance settled pairs (pairs.join news) left right after later where
  within := pairs.within_join news
  mirrors :=
    { oneToOne := mirrors.oneToOne.join oneToOne fun paired =>
        ⟨fun _ known => leaves.fresh (within paired).1 (mirrors.has known).1,
          fun _ known => arrives.fresh (within paired).2 (mirrors.has known).2⟩
      has := by
        rintro thing other (known | new)
        · exact ⟨leaves.has.mpr (.inl (mirrors.has known).1), arrives.has.mpr (.inl (mirrors.has known).2)⟩
        · exact ⟨leaves.has.mpr (.inr (within new).1), arrives.has.mpr (.inr (within new).2)⟩
      agree := by
        rintro thing other (known | new)
        · by_cases reached : thing ∈ touched ∨ other ∈ changed
          · exact agree known reached
          · rw [not_or] at reached
            have kept := leaves.keeps (mirrors.has known).1 reached.1
            have still := arrives.keeps (mirrors.has known).2 reached.2
            exact ((mirrors.agree known).of_keeps kept still).mono (pairs.within_join news)
        · exact also new
      callLimit := by rw [leaves.callLimit, arrives.callLimit, mirrors.callLimit]
      counted := ⟨leaves.counted mirrors.counted.1, arrives.counted mirrors.counted.2⟩ }
  fresh paired := paired.imp_right fun new => ⟨leaves.fresh (within new).1, arrives.fresh (within new).2⟩
  covers there := by
    refine (leaves.has.mp there).imp_right fun new => ?_
    obtain ⟨other, paired⟩ := covers new
    exact ⟨other, .inr paired⟩
  grows known := leaves.has.mpr (.inl known)
  growing known := arrives.has.mpr (.inl known)
  spares there apart := arrives.keeps there fun reached => (meant reached).elim apart
  bodies there := arrives.bodies there
  names known := arrives.names known
  settles still := ⟨arrives.callLimit, fun id there => arrives.keeps there (calm still id)⟩
  messages := spoken

theorem Mirrors.touch (mirrors : left.Mirrors pairs right) (paired : pairs thing other)
    (leaves : left.Becomes [thing] [] after) (arrives : right.Becomes [other] [] later)
    (calm : settled → ∀ id, other ≠ .domain id) (agree : after.Agree pairs later thing other)
    (quiet : after.log = left.log) (silent : later.log = right.log) :
    Advance settled pairs pairs left right after later := by
  have advance : Advance settled pairs (pairs.join fun _ _ => False) left right after later := by
    refine mirrors.advance leaves arrives (fun _ _ _ _ none => none.elim) (fun none => none.elim)
      (fun none => by cases none) ?_ ?_ ?_ (fun none => none.elim)
      ⟨[], [], by simp [quiet], by simp [silent], rfl⟩
    · rintro _ reached
      rw [List.mem_singleton] at reached
      exact ⟨thing, reached ▸ paired⟩
    · intro still id reached
      rw [List.mem_singleton] at reached
      exact calm still id reached.symm
    · intro first second known reached
      rw [List.mem_singleton, List.mem_singleton, mirrors.oneToOne known paired, or_self] at reached
      rw [(mirrors.oneToOne known paired).mpr reached, reached]
      exact agree.mono (pairs.within_join _)
  rwa [Counterparts.join_none] at advance

theorem Mirrors.make (mirrors : left.Mirrors pairs right) (leaves : left.Becomes [] [thing] after)
    (arrives : right.Becomes [] [other] later)
    (agree : after.Agree (pairs.join (.one thing other)) later thing other)
    (quiet : after.log = left.log) (silent : later.log = right.log) :
    Advance settled pairs (pairs.join (.one thing other)) left right after later := by
  refine mirrors.advance leaves arrives (Counterparts.oneToOne_one thing other) ?_ ?_ (fun none => by cases none)
    (fun _ _ none => by cases none) ?_ ?_ ⟨[], [], by simp [quiet], by simp [silent], rfl⟩
  · rintro _ _ ⟨rfl, rfl⟩
    exact ⟨List.mem_singleton_self _, List.mem_singleton_self _⟩
  · intro made new
    rw [List.mem_singleton] at new
    exact ⟨other, new, rfl⟩
  · rintro _ _ _ (none | none) <;> cases none
  · rintro _ _ ⟨rfl, rfl⟩
    exact agree

section Words

variable (mirrors : left.Mirrors pairs right)
include mirrors

theorem Mirrors.typeName_eq {domain like : DomainId} (paired : pairs (.domain domain) (.domain like))
    (tag : Tag) : left.typeName domain tag = right.typeName like tag := by
  have same : (left.domain domain).Mirrors pairs domain like (right.domain like) := mirrors.agree paired
  rw [typeName, typeName, same.names]

end Words

theorem Mirrors.naming (mirrors : left.Mirrors pairs right) : left.naming.Mirrors pairs right.naming := by
  let related (one two : PromiseId) : Prop := pairs (.promise one) (.promise two)
  refine ⟨fun paired => mirrors.typeName_eq paired _,
    @promiseText_eq left right related fun {unfoldings} below id like paired => ?_⟩
  have namings : Naming.Mirrors pairs ⟨left.typeName, left.promiseText unfoldings⟩
      ⟨right.typeName, right.promiseText unfoldings⟩ := ⟨fun known => mirrors.typeName_eq known _, below⟩
  have same : (left.promise id).Mirrors pairs (right.promise like) := mirrors.agree paired
  exact rel_imp (fun value => value.readsAs namings) same.value

end State

end LazyStack
