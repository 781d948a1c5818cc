import LazyStack.Proofs.Admission
import LazyStack.Proofs.Limit
import LazyStack.Proofs.Reading

/-!
Comparing runs. Two sides run at once, from states that correspond, and each operation that both do leads
to states that correspond again, or both fail with failures of one kind. A side that may run deeper than
the other is given up where it is cut off, and one that may hold more values may lack the words to say why
it fails. What else a comparison asks of the two states, and which side may do which, is up to its bond.
-/

namespace LazyStack

def Callable.checked (target : Callable) (frame : Frame) (args returns : Option Int) (body : Run Unit) :
    Run Unit := do
  match target.signature? with
  | none => body
  | some signature =>
      checkCounts target.kind signature args returns
      let before ← requireOperands target.kind signature frame
      body
      requireContract target.kind signature before frame

theorem Callable.callOnce_eq (machine : Machine) (target : Callable) (frame : Frame)
    (args returns : Option Int) :
    target.callOnce machine frame args returns =
      target.checked frame args returns (target.runBody machine frame args returns) :=
  rfl

inductive Step.Asks (frame : Frame) (state : State) : Step → Callable → Option Int → Option Int → Prop
  | got {name target} : state.lookup? frame.scope name = some (.callable target) →
      Asks frame state (.get name) target (some 0) (some 1)
  | named {name args returns binding target} : state.lookup? frame.scope name = some binding →
      binding.callee name state = .ok target state →
      Asks frame state (.call name args returns) target args returns

/-- What a comparison asks of the two states beyond their correspondence, which of them may be cut off when
the other is not, and whether the left one may lack words when the other does not. -/
structure Bond (shared : Shared) where
  keeps : World → Array Promise → State → State → Prop
  lenientLeft : Prop
  lenientRight : Prop
  wordless : Prop
  outdated {world origins left right} : keeps world origins left right → ∀ id, left.HasPromise id →
    left.promise id = ({ left with promises := origins } : State).promise id ∨
      wordless ∧ (({ left with promises := origins } : State).promise id).value = none
  operate {world origins left right} {stack other : StackId} (values others : Operands) :
    left.Coupled shared world origins right → keeps world origins left right →
    world.operandStacks stack other →
    keeps world origins (left.setOperands stack values) (right.setOperands other others)
  mark {world origins left right} (log events : Array Event) {number count : Nat} :
    left.nextIdentity ≤ number → right.nextIdentity ≤ count → keeps world origins left right →
    keeps world origins (left.marked log number) (right.marked events count)
  openFrame {world origins left right} (opened other : Scope) :
    left.Coupled shared world origins right → keeps world origins left right →
    keeps (world.opening left right) origins (left.opening opened) (right.opening other)
  delay {world origins left right} (promise other : Promise) :
    left.Coupled shared world origins right → keeps world origins left right →
    keeps (world.delaying left right) (origins.push promise) (left.delaying promise) (right.delaying other)

namespace Bond

variable {shared : Shared} (bond : Bond shared)

def Relates (world : World) (left right : State) : Prop :=
  ∃ origins, left.Coupled shared world origins right ∧ bond.keeps world origins left right

structure Level (frame caller : Frame) : Prop where
  left : frame.depth ≤ caller.depth ∨ bond.lenientLeft
  right : caller.depth ≤ frame.depth ∨ bond.lenientRight

structure Aligned (world : World) (frame caller : Frame) : Prop where
  scope : world.scopes frame.scope caller.scope
  stack : world.operandStacks frame.stack caller.stack
  level : bond.Level frame caller

/-- Failures of one kind, or the left side lacks the words. -/
def Alike (failure refusal : Failure) : Prop :=
  failure.kind = refusal.kind ∨ bond.wordless ∧ ∃ cause, failure = .unwritable cause

def Words (text other : Written String) : Prop :=
  text = other ∨ bond.wordless ∧ text.Needs other

inductive Matched {α β : Type} (world : World) (fit : World → α → β → Prop) :
    EStateM.Result Failure State α → EStateM.Result Failure State β → Prop
  | ends {wider result answer left right} :
      world.Within wider → bond.Relates wider left right → fit wider result answer →
      Matched world fit (.ok result left) (.ok answer right)
  | fails {wider failure refusal left right} :
      world.Within wider → bond.Relates wider left right → bond.Alike failure refusal →
      Matched world fit (.error failure left) (.error refusal right)
  | cutLeft {failure left outcome} :
      bond.lenientLeft → failure.Cuts → Matched world fit (.error failure left) outcome
  | cutRight {outcome failure right} :
      bond.lenientRight → failure.kind = .recursion → Matched world fit outcome (.error failure right)

abbrev Any {α β : Type} : World → α → β → Prop :=
  fun _ _ _ => True

abbrev Values (shared : Shared) (world : World) : Value → Value → Prop :=
  Value.Alike shared world.toPairing

variable {bond} {α β γ δ : Type} {world wider : World} {left right : State}

theorem Alike.kind_eq {failure refusal : Failure} (alike : bond.Alike failure refusal) (worded : ¬ bond.wordless) :
    failure.kind = refusal.kind :=
  alike.resolve_right fun both => worded both.1

theorem Matched.widen {fit : World → α → β → Prop} {outcome : EStateM.Result Failure State α}
    {other : EStateM.Result Failure State β} (matched : bond.Matched wider fit outcome other)
    (within : world.Within wider) : bond.Matched world fit outcome other := by
  cases matched with
  | ends further relates fits => exact .ends (within.trans further) relates fits
  | fails further relates alike => exact .fails (within.trans further) relates alike
  | cutLeft lenient cuts => exact .cutLeft lenient cuts
  | cutRight lenient cuts => exact .cutRight lenient cuts

theorem Matched.bind_both {run : Run α} {other : Run β} {next : α → Run γ} {rest : β → Run δ}
    {fit : World → α → β → Prop} {suits : World → γ → δ → Prop}
    (first : bond.Matched world fit (run left) (other right))
    (later : ∀ {wider result answer middle reached}, run left = .ok result middle →
      other right = .ok answer reached → world.Within wider → bond.Relates wider middle reached →
      fit wider result answer → bond.Matched wider suits (next result middle) (rest answer reached)) :
    bond.Matched world suits ((run >>= next) left) ((other >>= rest) right) := by
  rw [Run.bind_apply, Run.bind_apply]
  generalize outcome : run left = ended at first
  generalize answered : other right = reached at first
  cases first with
  | ends within relates fits => exact (later outcome answered within relates fits).widen within
  | fails within relates alike => exact .fails within relates alike
  -- A side that is cut off settles the comparison, whatever the other one would go on to do.
  | cutLeft lenient cuts => exact .cutLeft lenient cuts
  | cutRight lenient cuts => cases ended <;> exact .cutRight lenient cuts

theorem Matched.bind {run : Run α} {other : Run β} {next : α → Run γ} {rest : β → Run δ}
    {fit : World → α → β → Prop} {suits : World → γ → δ → Prop}
    (first : bond.Matched world fit (run left) (other right))
    (later : ∀ {wider result answer middle reached}, run left = .ok result middle →
      world.Within wider → bond.Relates wider middle reached → fit wider result answer →
      bond.Matched wider suits (next result middle) (rest answer reached)) :
    bond.Matched world suits ((run >>= next) left) ((other >>= rest) right) :=
  first.bind_both fun ran _ within relates fits => later ran within relates fits

section Relates

variable (relates : bond.Relates world left right)
include relates

theorem Relates.ends {fit : World → α → β → Prop} {result : α} {answer : β} (fits : fit world result answer) :
    bond.Matched world fit (.ok result left) (.ok answer right) :=
  .ends (.refl world) relates fits

theorem Relates.fails {fit : World → α → β → Prop} {failure refusal : Failure}
    (kinds : failure.kind = refusal.kind) :
    bond.Matched world fit (.error failure left) (.error refusal right) :=
  .fails (.refl world) relates (.inl kinds)

theorem Relates.fails_worded {fit : World → α → β → Prop} {wording other : String → Failure}
    {text shown : Written String} (words : bond.Words text shown)
    (kinds : ∀ text shown, (wording text).kind = (other shown).kind) :
    bond.Matched world fit (.error (.worded wording text) left) (.error (.worded other shown) right) := by
  refine .fails (.refl world) relates ?_
  rcases words with rfl | ⟨wordless, needs⟩
  · cases text with
    | ok text => exact .inl (kinds text text)
    | error cause => exact .inl rfl
  · cases text with
    | error cause => exact .inr ⟨wordless, cause, rfl⟩
    | ok text => cases shown with
      | ok shown => exact .inl (kinds text shown)
      | error cause => cases needs rfl

theorem Relates.refuse {fit : World → α → β → Prop} {run : Run α} {other : Run β} {kind : FailureKind}
    (failed : ∃ failure, failure.kind = kind ∧ run left = .error failure left)
    (refused : ∃ refusal, refusal.kind = kind ∧ other right = .error refusal right) :
    bond.Matched world fit (run left) (other right) := by
  obtain ⟨failure, sort, failed⟩ := failed
  obtain ⟨refusal, same, refused⟩ := refused
  rw [failed, refused]
  exact relates.fails (sort.trans same.symm)

theorem Relates.operands {stack other : StackId} (paired : world.operandStacks stack other) :
    left.HasStack stack ∧ right.HasStack other ∧
      List.Forall₂ (Values shared world) (left.operands stack) (right.operands other) := by
  obtain ⟨origins, coupled, _⟩ := relates
  exact coupled.operands paired

theorem Relates.lookup? {scope other : ScopeId} (paired : world.scopes scope other) {name : String}
    (known : shared.names name) :
    Option.Rel (Binding.Alike shared world.toPairing) (left.lookup? scope name)
      (right.lookup? other name) := by
  obtain ⟨origins, coupled, _⟩ := relates
  have scopes : ({ left with promises := origins } : State).scopes = left.scopes := rfl
  rw [← State.lookup?_of_scopes scopes]
  exact coupled.alike.lookup? known paired

theorem Relates.domain {domain : DomainId} (known : shared.domains domain) :
    left.domain domain = right.domain domain ∧ shared.nulls (left.domain domain).null.identity := by
  obtain ⟨origins, coupled, _⟩ := relates
  exact coupled.alike.domains known

theorem Relates.origin : ∃ origin : State, origin.Alike shared world.toPairing right ∧
    (left.naming = origin.naming ∨ bond.wordless ∧ left.naming.Fits Written.Needs origin.naming) := by
  obtain ⟨origins, coupled, kept⟩ := relates
  refine ⟨{ left with promises := origins }, coupled.alike, ?_⟩
  by_cases wordless : bond.wordless
  · refine .inr ⟨wordless, State.naming_needs rfl coupled.sized.symm fun id => ?_⟩
    by_cases there : left.HasPromise id
    · exact (bond.outdated kept id there).imp_right And.right
    · exact .inl (State.promise_of_missing there (fun here => there (Nat.lt_of_lt_of_eq here coupled.sized)))
  · have same : left.promises = origins :=
      State.promises_ext coupled.sized.symm fun id there =>
        (bond.outdated kept id there).resolve_right fun both => wordless both.1
    exact .inl (State.naming_of_same rfl same)

theorem Relates.words_value {value other : Value} (alike : Values shared world value other) :
    bond.Words (left.valueText value) (right.valueText other) := by
  obtain ⟨origin, same, namings⟩ := relates.origin
  rw [← same.valueText_eq alike, State.valueText, State.valueText]
  rcases namings with same | ⟨wordless, needs⟩
  · exact .inl (by rw [same])
  · exact .inr ⟨wordless, needs.text Written.wording_needs value .standard 0⟩

theorem Relates.words_payload {payload other : Payload} (alike : payload.Alike shared world.toPairing other) :
    bond.Words (left.payloadQuoted payload) (right.payloadQuoted other) := by
  obtain ⟨origin, same, namings⟩ := relates.origin
  rw [← same.payloadQuoted_eq alike, State.payloadQuoted, State.payloadQuoted]
  rcases namings with same | ⟨wordless, needs⟩
  · exact .inl (by rw [same])
  · exact .inr ⟨wordless, needs.quoted Written.wording_needs payload⟩

theorem Relates.callLimit : left.callLimit = shared.limit ∧ right.callLimit = shared.limit := by
  obtain ⟨origins, coupled, _⟩ := relates
  exact coupled.alike.callLimit

theorem Relates.alike_of_origins (own : ∀ {world origins left right}, bond.keeps world origins left right →
    origins = left.promises) :
    left.Alike shared world.toPairing right ∧ bond.keeps world left.promises left right := by
  obtain ⟨origins, coupled, kept⟩ := relates
  have same := own kept
  subst same
  exact ⟨coupled.alike, kept⟩

theorem Relates.operate {stack other : StackId} (paired : world.operandStacks stack other)
    {values others : Operands} (same : List.Forall₂ (Values shared world) values others) :
    bond.Relates world (left.setOperands stack values) (right.setOperands other others) := by
  obtain ⟨origins, coupled, kept⟩ := relates
  exact ⟨origins, coupled.operate paired same, bond.operate values others coupled kept paired⟩

theorem Relates.mark (log events : Array Event) {number count : Nat} (more : left.nextIdentity ≤ number)
    (further : right.nextIdentity ≤ count) :
    bond.Relates world (left.marked log number) (right.marked events count) := by
  obtain ⟨origins, coupled, kept⟩ := relates
  exact ⟨origins, coupled.mark log events more further, bond.mark log events more further kept⟩

theorem Relates.openFrame {opened other : Scope} (same : opened.Alike shared world.toPairing other) :
    bond.Relates (world.opening left right) (left.opening opened) (right.opening other) := by
  obtain ⟨origins, coupled, kept⟩ := relates
  exact ⟨origins, coupled.openFrame same, bond.openFrame opened other coupled kept⟩

theorem Relates.delay {scope other : ScopeId} (paired : world.scopes scope other) {body : List Step}
    (code : CodeShared shared world.toPairing body) :
    bond.Relates (world.delaying left right) (left.delaying (.pending scope body))
      (right.delaying (.pending other body)) := by
  obtain ⟨origins, coupled, kept⟩ := relates
  exact ⟨_, coupled.delay paired code, bond.delay _ _ coupled kept⟩

theorem Relates.matched_push {stack other : StackId} (paired : world.operandStacks stack other)
    {value answer : Value} (alike : Values shared world value answer) :
    bond.Matched world Any (stack.push value left) (other.push answer right) :=
  .ends (.refl world) (relates.operate paired (.cons alike (relates.operands paired).2.2)) trivial

theorem Relates.matched_pop {stack other : StackId} (paired : world.operandStacks stack other) :
    bond.Matched world (Values shared) (stack.pop left) (other.pop right) := by
  obtain ⟨_, _, same⟩ := relates.operands paired
  generalize onLeft : left.operands stack = operands at same
  generalize onRight : right.operands other = others at same
  cases same with
  | nil =>
      rw [stack.pop_of_nil left onLeft, other.pop_of_nil right onRight]
      exact relates.fails rfl
  | cons top rest =>
      rw [stack.pop_of_cons left onLeft, other.pop_of_cons right onRight]
      exact .ends (.refl world) (relates.operate paired rest) top

theorem Relates.matched_typeName {domain : DomainId} (known : shared.domains domain) (tag : Tag) :
    bond.Matched world (fun _ => Eq) (domain.typeName tag left) (domain.typeName tag right) := by
  rw [domain.typeName_apply, domain.typeName_apply, (relates.domain known).1, Domain.typeName]
  cases (right.domain domain).names.get? tag with
  | none => exact relates.fails rfl
  | some name => exact relates.ends rfl

theorem Relates.matched_valueTypeName {value other : Value} (alike : Values shared world value other) :
    bond.Matched world (fun _ => Eq) (value.typeName left) (other.typeName right) := by
  rw [Value.typeName, Value.typeName, ← alike.domain, ← alike.tag]
  exact relates.matched_typeName alike.known value.tag

theorem Relates.matched_expect {value other : Value} (alike : Values shared world value other) (tag : Tag)
    (description : String) :
    bond.Matched world (fun world => Payload.Alike shared world.toPairing) (value.expect tag description left)
      (other.expect tag description right) := by
  by_cases tagged : value.tag = tag
  · rw [value.expect_of_tag description tagged, other.expect_of_tag description (alike.tag ▸ tagged)]
    exact relates.ends alike.payload
  · rw [Value.expect, Value.expect, if_neg tagged, if_neg (alike.tag ▸ tagged), ← alike.domain]
    refine (relates.matched_typeName alike.known tag).bind fun _ first relates expected => ?_
    have alike := alike.mono first.pairing
    refine (relates.matched_valueTypeName alike).bind fun _ second relates found => ?_
    exact relates.fails_worded (relates.words_value (alike.mono second.pairing)) fun _ _ => rfl

theorem Relates.matched_create {domain : DomainId} (known : shared.domains domain) (tag : Tag)
    {payload other : Payload} (alike : payload.Alike shared world.toPairing other) :
    bond.Matched world (Values shared) (domain.create tag payload left) (domain.create tag other right) := by
  obtain ⟨origins, coupled, _⟩ := id relates
  rw [DomainId.create_apply, DomainId.create_apply, (relates.domain known).1, alike.fits]
  cases (right.domain domain).names.get? tag with
  | none => exact relates.fails rfl
  | some name =>
      dsimp only
      by_cases fitting : other.fits tag
      · rw [if_pos fitting, if_pos fitting]
        have marked := relates.mark left.log right.log (Nat.le_succ _) (Nat.le_succ _)
        refine .ends (.refl world) marked (.made known alike fun null meant => ?_)
        obtain ⟨older, old⟩ := coupled.alike.nulls meant
        exact iff_of_false (Nat.ne_of_gt older) (Nat.ne_of_gt old)
      · rw [if_neg fitting, if_neg fitting]
        exact relates.fails_worded (relates.words_payload alike) fun _ _ => rfl

theorem Relates.matched_lookup {scope other : ScopeId} (paired : world.scopes scope other) {name : String}
    (known : shared.names name) :
    bond.Matched world (fun world => Binding.Alike shared world.toPairing) (scope.lookup name left)
      (other.lookup name right) := by
  rw [ScopeId.lookup_apply, ScopeId.lookup_apply]
  have related := relates.lookup? paired known
  generalize left.lookup? scope name = found at related
  generalize right.lookup? other name = answer at related
  cases related with
  | none => exact relates.fails rfl
  | some alike => exact relates.ends alike

theorem Relates.matched_callee {binding other : Binding} (alike : binding.Alike shared world.toPairing other)
    (name : String) :
    bond.Matched world (fun world => Callable.Alike shared world.toPairing) (binding.callee name left)
      (other.callee name right) := by
  cases alike with
  | callable target => exact relates.ends target
  | @value bound answer alike =>
      rcases bound.callee_cases name left with ⟨target, tagged, holds, named⟩ | ⟨apart, failed⟩
      · obtain ⟨like, payload, same⟩ := alike.payload.of_callable holds
        rw [named, Binding.callee_of_callable name right (alike.tag ▸ tagged) payload]
        exact relates.ends same
      · rcases answer.callee_cases name right with ⟨target, tagged, holds, _⟩ | ⟨_, refused⟩
        · obtain ⟨like, payload, _⟩ := alike.converse.payload.of_callable holds
          exact absurd payload (apart like (alike.tag.trans tagged))
        · exact relates.refuse failed refused

theorem Relates.matched_names {elements others : List Value}
    (alike : List.Forall₂ (Values shared world) elements others) :
    bond.Matched world (fun _ => Eq) (elements.mapM Value.parameterName left)
      (others.mapM Value.parameterName right) := by
  induction elements generalizing others world left right with
  | nil =>
      cases alike
      exact relates.ends rfl
  | cons element elements ih =>
      cases alike with
      | cons first rest =>
          rw [List.mapM_cons, List.mapM_cons]
          have named : bond.Matched world (fun _ => Eq) (element.parameterName left) _ :=
            (relates.matched_expect first .symbol _).bind fun _ _ reached payload =>
              reached.ends payload.symbolName
          refine named.bind fun _ within reached same => ?_
          have others := rest.imp fun _ _ value => value.mono within.pairing
          refine (ih reached others).bind fun _ _ further names => ?_
          exact further.ends (same ▸ names ▸ rfl)

theorem Relates.matched_parameterNames {domain : DomainId} (known : shared.domains domain)
    {value other : Value} (alike : Values shared world value other) :
    bond.Matched world (fun _ => Eq) (domain.parameterNames value left)
      (domain.parameterNames other right) := by
  obtain ⟨elements, terminator⟩ := alike.chain
  obtain ⟨same, meant⟩ := relates.domain known
  have null : domain.null right = .ok (left.domain domain).null right := by rw [same]; rfl
  have found : domain.null left = .ok (left.domain domain).null left := rfl
  rw [DomainId.parameterNames, DomainId.parameterNames, Run.bind_of_ok null, Run.bind_of_ok found,
    ← alike.same meant, ← alike.tag, ← terminator.same meant]
  split
  · exact relates.ends rfl
  · split
    · refine (relates.matched_names elements).bind fun _ within reached same => ?_
      split
      · exact reached.ends same
      · exact reached.fails_worded (reached.words_value (terminator.mono within.pairing)) fun _ _ => rfl
    · refine (relates.matched_valueTypeName alike).bind fun _ within reached same => ?_
      exact reached.fails_worded (reached.words_value (alike.mono within.pairing)) fun _ _ => rfl

theorem Relates.matched_deeper {fit : World → α → β → Prop} {frame caller : Frame}
    {outcome : EStateM.Result Failure State α} {other : EStateM.Result Failure State β}
    (level : bond.Level frame caller)
    (rest : frame.depth + 1 ≤ (left.callLimit : Int) → caller.depth + 1 ≤ (right.callLimit : Int) →
      bond.Matched world fit outcome other) :
    bond.Matched world fit
      (if (left.callLimit : Int) < frame.depth + 1 then .error (.tooDeep left.callLimit) left else outcome)
      (if (right.callLimit : Int) < caller.depth + 1 then .error (.tooDeep right.callLimit) right
        else other) := by
  obtain ⟨own, limit⟩ := relates.callLimit
  by_cases deep : (left.callLimit : Int) < frame.depth + 1
  · rw [if_pos deep]
    by_cases also : (right.callLimit : Int) < caller.depth + 1
    · rw [if_pos also]
      exact relates.fails rfl
    · rcases level.left with shallow | lenient
      · omega
      · exact .cutLeft lenient (.inl rfl)
  · rw [if_neg deep]
    by_cases also : (right.callLimit : Int) < caller.depth + 1
    · rw [if_pos also]
      rcases level.right with shallow | lenient
      · omega
      · exact .cutRight lenient rfl
    · rw [if_neg also]
      exact rest (by omega) (by omega)

theorem Relates.matched_opening {opened other : Scope} (same : opened.Alike shared world.toPairing other)
    {frame caller : Frame} (level : bond.Level frame caller) :
    bond.Matched world bond.Aligned (.ok (left.nextFrame (frame.depth + 1)) (left.opening opened))
      (.ok (right.nextFrame (caller.depth + 1)) (right.opening other)) := by
  have inner : bond.Level (left.nextFrame (frame.depth + 1)) (right.nextFrame (caller.depth + 1)) :=
    ⟨level.left.imp (Int.add_le_add_right · 1) id, level.right.imp (Int.add_le_add_right · 1) id⟩
  exact .ends (world.within_opening left right) (relates.openFrame same)
    ⟨.inr ⟨rfl, rfl⟩, .inr ⟨rfl, rfl⟩, inner⟩

theorem Relates.matched_enterPromise {scope other : Option ScopeId}
    (linked : Option.Rel world.scopes scope other) {frame caller : Frame}
    (level : bond.Level frame caller) :
    bond.Matched world bond.Aligned (enterPromise scope frame left) (enterPromise other caller right) := by
  rw [enterPromise_apply, enterPromise_apply]
  have same : (⟨[], scope⟩ : Scope).Alike shared world.toPairing ⟨[], other⟩ := ⟨linked, fun _ => .none⟩
  exact relates.matched_deeper level fun _ _ => relates.matched_opening same level

theorem Relates.matched_enterClosure {scope other : ScopeId} (paired : world.scopes scope other)
    {frame caller : Frame} (aligned : bond.Aligned world frame caller) (parameters : List String) :
    bond.Matched world bond.Aligned (enterClosure scope parameters frame left)
      (enterClosure other parameters caller right) := by
  obtain ⟨_, _, same⟩ := relates.operands aligned.stack
  rw [enterClosure_apply, enterClosure_apply]
  refine relates.matched_deeper aligned.level fun _ _ => ?_
  rw [same.length_eq, State.withArguments_eq, State.withArguments_eq]
  split
  · exact relates.fails rfl
  · have taken := relates.operate aligned.stack (List.forall₂_drop parameters.length same)
    have arguments := List.forall₂_reverse_iff.mpr (List.forall₂_take parameters.length same)
    have opened := taken.matched_opening (.ofArguments (.some paired) arguments parameters) aligned.level
    rwa [State.nextFrame_setOperands, State.nextFrame_setOperands] at opened

theorem Relates.matched_soleResult {stack other : StackId} (paired : world.operandStacks stack other)
    (failure : Nat → Failure) :
    bond.Matched world (Values shared) (soleResult stack failure left) (soleResult other failure right) := by
  obtain ⟨_, _, same⟩ := relates.operands paired
  rw [soleResult, soleResult, Run.bind_of_ok (stack.size_apply left), Run.bind_of_ok (other.size_apply right),
    same.length_eq]
  split
  · exact relates.matched_pop paired
  · exact relates.fails rfl

theorem Relates.matched_record (event other : Event) :
    bond.Matched world Any (Run.record event left) (Run.record other right) :=
  .ends (.refl world)
    (relates.mark (left.log.push event) (right.log.push other) (Nat.le_refl _) (Nat.le_refl _)) trivial

theorem Relates.matched_newPromise {scope other : ScopeId} (paired : world.scopes scope other)
    {body : List Step} (code : CodeShared shared world.toPairing body) :
    bond.Matched world (fun world => world.promises) (Run.newPromise scope body left)
      (Run.newPromise other body right) :=
  .ends (world.within_delaying left right) (relates.delay paired code) (.inr ⟨rfl, rfl⟩)

end Relates

theorem Aligned.mono {frame caller : Frame} (aligned : bond.Aligned world frame caller)
    (within : world.Within wider) : bond.Aligned wider frame caller :=
  ⟨within.pairing.scopes aligned.scope, within.operandStacks aligned.stack, aligned.level⟩

theorem Aligned.bind {frame caller : Frame} (aligned : bond.Aligned world frame caller) {run : Run α}
    {other : Run β} {next : α → Run γ} {rest : β → Run δ} {fit : World → α → β → Prop}
    {suits : World → γ → δ → Prop} (first : bond.Matched world fit (run left) (other right))
    (later : ∀ {wider result answer middle reached}, run left = .ok result middle →
      world.Within wider → bond.Relates wider middle reached → bond.Aligned wider frame caller →
      fit wider result answer → bond.Matched wider suits (next result middle) (rest answer reached)) :
    bond.Matched world suits ((run >>= next) left) ((other >>= rest) right) :=
  first.bind fun ran within relates fits => later ran within relates (aligned.mono within) fits

section Bodies

variable (relates : bond.Relates world left right) {frame caller : Frame}
  (aligned : bond.Aligned world frame caller)
include relates aligned

theorem Relates.matched_runMakeClosure {domain : DomainId} (known : shared.domains domain) :
    bond.Matched world Any (runMakeClosure domain frame left) (runMakeClosure domain caller right) := by
  rw [runMakeClosure, runMakeClosure]
  refine aligned.bind (relates.matched_pop aligned.stack) fun _ _ relates aligned code => ?_
  refine aligned.bind (relates.matched_expect code .code _) fun _ _ relates aligned payload => ?_
  refine aligned.bind (relates.matched_pop aligned.stack) fun _ third relates aligned list => ?_
  refine aligned.bind (relates.matched_parameterNames known list) fun _ fourth relates aligned same => ?_
  subst same
  refine aligned.bind (relates.matched_record _ _) fun _ fifth relates aligned _ => ?_
  have within := (third.trans fourth).trans fifth
  obtain ⟨same, body⟩ := (payload.mono within.pairing).steps
  rw [← same]
  refine aligned.bind (relates.matched_create known .callable (.callable (.closure aligned.scope body)))
    fun _ _ relates aligned made => ?_
  exact relates.matched_push aligned.stack made

theorem Relates.matched_runDelay : bond.Matched world Any (runDelay frame left) (runDelay caller right) := by
  rw [runDelay, runDelay]
  refine aligned.bind (relates.matched_pop aligned.stack) fun _ _ relates aligned argument => ?_
  refine aligned.bind (relates.matched_expect argument .code _) fun _ second relates aligned payload => ?_
  obtain ⟨same, body⟩ := payload.steps
  rw [← same]
  refine aligned.bind (relates.matched_newPromise aligned.scope body) fun _ third relates aligned paired => ?_
  have argument := argument.mono (second.trans third).pairing
  rw [← argument.domain]
  refine aligned.bind (relates.matched_create argument.known .callable (.callable (.promise paired)))
    fun _ _ relates aligned made => ?_
  exact relates.matched_push aligned.stack made

theorem Relates.matched_runIsPromise :
    bond.Matched world Any (runIsPromise frame left) (runIsPromise caller right) := by
  rw [runIsPromise, runIsPromise]
  refine aligned.bind (relates.matched_pop aligned.stack) fun _ _ relates aligned value => ?_
  rw [← value.domain, ← value.isPromise]
  refine aligned.bind (relates.matched_create value.known .bool (.atom rfl))
    fun _ _ relates aligned made => ?_
  exact relates.matched_push aligned.stack made

theorem Relates.matched_checked {target other : Callable} (alike : target.Alike shared world.toPairing other)
    {args returns : Option Int} {body answer : Run Unit}
    (nested : target.Admits frame args returns left → bond.Matched world Any (body left) (answer right)) :
    bond.Matched world Any (target.checked frame args returns body left)
      (other.checked caller args returns answer right) := by
  have same := (relates.operands aligned.stack).2.2.length_eq
  rw [Callable.checked, Callable.checked, ← alike.signature?, ← alike.kind]
  cases declared : target.signature? with
  | none => exact nested (Callable.admits_of_signatureless declared)
  | some signature =>
      dsimp only
      by_cases accepted : signature.Accepts args returns
      · rw [Run.bind_of_ok (checkCounts_of_accepts accepted _ left),
          Run.bind_of_ok (checkCounts_of_accepts accepted _ right), Run.bind_apply, Run.bind_apply,
          requireOperands_apply, requireOperands_apply, ← same]
        by_cases short : ((left.operands frame.stack).length : Int) < signature.args
        · rw [if_pos short, if_pos short]
          exact relates.fails rfl
        · rw [if_neg short, if_neg short]
          have admitted := Callable.admits_of_accepts declared accepted (Int.not_lt.mp short)
          refine aligned.bind (nested admitted) fun _ _ relates aligned _ => ?_
          rw [requireContract_apply, requireContract_apply,
            (relates.operands aligned.stack).2.2.length_eq]
          split
          · exact relates.ends trivial
          · exact relates.fails rfl
      · obtain ⟨failure, kind, failed⟩ := checkCounts_of_not_accepts accepted target.kind left
        obtain ⟨refusal, sort, refused⟩ := checkCounts_of_not_accepts accepted target.kind right
        exact relates.refuse ⟨failure, kind, Run.bind_of_error failed⟩
          ⟨refusal, sort, Run.bind_of_error refused⟩

theorem Relates.matched_step {step : Step} (code : CodeShared shared world.toPairing [step])
    {invoke answer : Invoke}
    (nested : ∀ {wider target other args returns reached}, step.Asks frame left target args returns →
      bond.Relates wider left reached → bond.Aligned wider frame caller →
      target.Alike shared wider.toPairing other →
      bond.Matched wider Any (invoke target frame args returns left)
        (answer other caller args returns reached)) :
    bond.Matched world Any (step.execute invoke frame left) (step.execute answer caller right) := by
  cases code with
  | push value => exact relates.matched_push aligned.stack value
  | note => exact relates.ends trivial
  | @get name _ known =>
      refine aligned.bind (relates.matched_lookup aligned.scope known) fun found _ after aligned same => ?_
      obtain ⟨bound, unchanged⟩ := ScopeId.lookup_eq_ok found
      subst unchanged
      cases same with
      | value alike => exact after.matched_push aligned.stack alike
      | callable alike => exact nested (.got bound) after aligned alike
  | @call name args returns _ known =>
      refine aligned.bind (relates.matched_lookup aligned.scope known) fun found _ after aligned same => ?_
      obtain ⟨bound, unchanged⟩ := ScopeId.lookup_eq_ok found
      subst unchanged
      refine aligned.bind (after.matched_callee same name) fun named _ further aligned alike => ?_
      have unchanged := (Binding.reads_callee name _).final_of_ok named
      subst unchanged
      exact nested (.named bound named) further aligned alike

variable {machine answer : Machine}

theorem Relates.matched_runForce
    (nested : ∀ {wider argument target other middle reached}, frame.stack.pop left = .ok argument middle →
      argument.expect .callable "'force' argument" middle = .ok (.callable target) middle →
      bond.Relates wider middle reached → bond.Aligned wider frame caller →
      target.Alike shared wider.toPairing other →
      bond.Matched wider Any (machine.call target frame (some 0) (some 1) middle)
        (answer.call other caller (some 0) (some 1) reached)) :
    bond.Matched world Any (runForce machine frame left) (runForce answer caller right) := by
  rw [runForce, runForce]
  refine aligned.bind (relates.matched_pop aligned.stack) fun popped _ relates aligned argument => ?_
  refine aligned.bind (relates.matched_expect argument .callable _)
    @fun _ datum _ _ _ expected _ after aligned payload => ?_
  have unchanged := (Value.reads_expect _ _ _).final_of_ok expected
  subst unchanged
  cases payload with
  | callable target => exact nested popped expected after aligned target
  | atom atomic =>
      cases datum with
      | callable => cases atomic
      | _ => exact after.ends trivial
  | _ => exact after.ends trivial

theorem Relates.matched_runClosure {scope other : ScopeId} (paired : world.scopes scope other)
    (body : List Step) (parameters : List String)
    (nested : ∀ {wider inner entered middle reached},
      enterClosure scope parameters frame left = .ok inner middle →
      enterClosure other parameters caller right = .ok entered reached → world.Within wider →
      bond.Relates wider middle reached → bond.Aligned wider inner entered →
      bond.Matched wider Any (machine.run inner body middle) (answer.run entered body reached)) :
    bond.Matched world Any (runClosure machine scope body parameters frame left)
      (runClosure answer other body parameters caller right) := by
  rw [runClosure, runClosure]
  refine (relates.matched_enterClosure paired aligned parameters).bind_both
    fun entered begun first relates inner => ?_
  have aligned := aligned.mono first
  refine aligned.bind (nested entered begun first relates inner) fun _ second relates aligned _ => ?_
  refine aligned.bind (relates.matched_soleResult (inner.mono second).stack _)
    fun _ _ relates aligned value => ?_
  exact relates.matched_push aligned.stack value

end Bodies

theorem Relates.matched_compute {machine answer : Machine} (relates : bond.Relates world left right)
    {promise other : Promise} (linked : Option.Rel world.scopes promise.scope other.scope)
    (same : promise.body = other.body) {frame caller : Frame} (level : bond.Level frame caller)
    (nested : ∀ {wider inner entered middle reached},
      enterPromise promise.scope frame left = .ok inner middle →
      enterPromise other.scope caller right = .ok entered reached → world.Within wider →
      bond.Relates wider middle reached → bond.Aligned wider inner entered →
      bond.Matched wider Any (machine.run inner (promise.body.getD []) middle)
        (answer.run entered (promise.body.getD []) reached)) :
    bond.Matched world (Values shared) (promise.compute machine frame left)
      (other.compute answer caller right) := by
  rw [Promise.compute, Promise.compute, ← same]
  refine (relates.matched_enterPromise linked level).bind_both fun entered begun first relates inner => ?_
  refine (nested entered begun first relates inner).bind fun _ second relates _ => ?_
  exact relates.matched_soleResult (inner.mono second).stack _

end Bond

end LazyStack
