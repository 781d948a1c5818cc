import LazyStack.Proofs.ByName

/-!
Calling by need refines calling by name. A promise that keeps its value keeps one that its body has come to
by name, and would come to again. So where code succeeds by name it succeeds by need with values that
correspond, and where it fails by name, but for its depth, it fails by need with an error of the same kind.
-/

namespace LazyStack

/-- The body of a promise has come to a value by name in a state that has only grown since. -/
inductive State.Yielded (shared : Shared) (state : State) (id : PromiseId) (value : Value) : Prop
  | computed {pairing : Pairing} {first last : State} {budget : Nat} {frame : Frame} :
      first.Alike shared pairing first → pairing.promises id id →
      (first.promise id).compute (.under runPromiseByName budget) frame first = .ok value last →
      first.ExtendsTo last → last.ExtendsTo state → State.Yielded shared state id value

theorem State.Yielded.extend {shared : Shared} {state later : State} {id : PromiseId} {value : Value}
    (yielded : state.Yielded shared id value) (grown : state.ExtendsTo later) :
    later.Yielded shared id value := by
  cases yielded with
  | computed alike paired ran grew last => exact .computed alike paired ran grew (last.trans grown)

/-- A promise is as it was made, or it keeps a value that stands for one that its body came to by name. -/
def Remembers (shared : Shared) (world : World) (origins : Array Promise) (left right : State)
    (id : PromiseId) : Prop :=
  left.promise id = ({ left with promises := origins } : State).promise id ∨
  (({ left with promises := origins } : State).promise id).value = none ∧
    ∃ value answer result, left.promise id = .resolved value ∧ world.promises id answer ∧
      right.Yielded shared answer result ∧ value.Alike shared world.toPairing result

theorem Remembers.later {shared : Shared} {world wider : World} {origins more : Array Promise}
    {left right later further : State} {id : PromiseId}
    (remembers : Remembers shared world origins left right id) (own : later.promise id = left.promise id)
    (origin : ({ later with promises := more } : State).promise id =
      ({ left with promises := origins } : State).promise id)
    (within : world.Within wider) (grown : right.ExtendsTo further) :
    Remembers shared wider more later further id := by
  rw [Remembers, own, origin]
  refine remembers.imp_right ?_
  rintro ⟨pending, value, answer, result, resolved, paired, yielded, alike⟩
  exact ⟨pending, value, answer, result, resolved, within.pairing.promises paired, yielded.extend grown,
    alike.mono within.pairing⟩

theorem Remembers.delay {shared : Shared} {world : World} {origins : Array Promise} {left right : State}
    (coupled : left.Coupled shared world origins right)
    (kept : ∀ id, left.HasPromise id → Remembers shared world origins left right id)
    (promise other : Promise) {id : PromiseId} (made : (left.delaying promise).HasPromise id) :
    Remembers shared (world.delaying left right) (origins.push promise) (left.delaying promise)
      (right.delaying other) id := by
  by_cases new : id.index = left.promises.size
  · refine .inl ?_
    have origin := State.promise_push { left with promises := origins } promise id
    rw [if_pos (new.trans coupled.sized.symm)] at origin
    rw [State.delaying, State.promise_push, if_pos new]
    exact origin.symm
  · have old : left.HasPromise id := by
      simp only [State.HasPromise, State.delaying, Array.size_push] at made ⊢
      omega
    have present : ({ left with promises := origins } : State).HasPromise id :=
      Nat.lt_of_lt_of_eq old coupled.sized.symm
    exact (kept id old).later ((State.ExtendsTo.delaying left promise).promise old)
      ((State.ExtendsTo.delaying _ promise).promise present) (world.within_delaying left right)
      (.delaying right other)

namespace Bond

def byNeed (shared : Shared) : Bond shared where
  keeps world origins left right := ∀ id, left.HasPromise id → Remembers shared world origins left right id
  lenientLeft := False
  lenientRight := True
  wordless := True
  outdated kept id made := (kept id made).imp_right fun remembers => ⟨trivial, remembers.1⟩
  operate _ others _ kept _ id made := (kept id made).later rfl rfl (.refl _) (.setOperands _ _ others)
  mark _ events _ _ _ further kept id made :=
    (kept id made).later rfl rfl (.refl _) (.marked _ events further)
  openFrame _ other _ kept id made :=
    (kept id made).later rfl rfl (World.within_opening _ _ _) (.opening _ other)
  delay promise other coupled kept _ made := Remembers.delay coupled kept promise other made

variable {shared : Shared} {world : World} {left right : State}

theorem byNeed_relates_on {origins : Array Promise} {reached : State}
    (coupled : left.Coupled shared world origins right)
    (kept : ∀ id, left.HasPromise id → Remembers shared world origins left right id) {wider : Pairing}
    (within : world.toPairing.Within wider)
    (alike : ({ left with promises := origins } : State).Alike shared wider reached)
    (grown : right.ExtendsTo reached)
    (untouched : ∀ stack, right.HasStack stack →
      reached.HasStack stack ∧ reached.operands stack = right.operands stack) :
    (byNeed shared).Relates ⟨wider, world.operandStacks⟩ left reached := by
  refine ⟨origins, ⟨alike, coupled.sized, fun paired => ?_, coupled.unique⟩, fun id made => ?_⟩
  · obtain ⟨made, there, same⟩ := coupled.operands paired
    obtain ⟨still, unchanged⟩ := untouched _ there
    rw [unchanged]
    exact ⟨made, still, same.imp fun _ _ value => value.mono within⟩
  · exact (kept id made).later rfl rfl ⟨within, fun paired => paired⟩ grown

-- The body comes by name to a value in a state that has grown since it came to the one that is kept, so the
-- pairing is that of the two computations, led back through the pairing of the two runs.
theorem byNeed_kept (hostless : ∀ id header, ¬ shared.hosts id header)
    {origins : Array Promise} (coupled : left.Coupled shared world origins right)
    (kept : ∀ id, left.HasPromise id → Remembers shared world origins left right id)
    {id answer known : PromiseId} (paired : world.promises id answer) (also : world.promises id known)
    {frame caller : Frame} (aligned : (byNeed shared).Aligned world frame caller) {other : Nat}
    (enough : 2 * caller.room shared.limit ≤ other) {value result : Value}
    (yielded : right.Yielded shared known result) (alike : value.Alike shared world.toPairing result) :
    (byNeed shared).Matched world Any (frame.stack.push value left)
      (((right.promise answer).compute (.under runPromiseByName other) caller >>= caller.stack.push)
        right) := by
  cases yielded with
  | @computed pairing first last _ _ self own ran grew since =>
      have around := self.extend (.refl first) (grew.trans since)
      have heaps := around.comp (coupled.alike.converse.comp coupled.alike)
      have meets : (pairing.comp (world.toPairing.converse.comp world.toPairing)).promises known answer :=
        ⟨known, own, id, also, paired⟩
      rcases compute_again hostless heaps (heaps.promises meets).2.2 ran enough with
        ⟨failure, reached, deep, failed⟩ |
          ⟨wider, again, reached, within, computed, ends, same, grown, untouched⟩
      · rw [Run.bind_of_error failed]
        exact .cutRight trivial deep
      · rw [Run.bind_of_ok computed]
        have onward := coupled.alike.comp (ends.extend since (.refl reached))
        have joint := (coupled.alike.extend (.refl _) grown).union onward
        have wide := world.toPairing.within_union_left (world.toPairing.comp wider)
        have relates := byNeed_relates_on coupled kept wide joint grown untouched
        have both : world.Within ⟨world.toPairing.union (world.toPairing.comp wider), world.operandStacks⟩ :=
          ⟨wide, fun paired => paired⟩
        have like := (alike.comp same).mono (world.toPairing.within_union_right _)
        exact (relates.matched_push (aligned.mono both).stack like).widen both

theorem byNeed_store (hostless : ∀ id header, ¬ shared.hosts id header) {origins : Array Promise}
    (coupled : left.Coupled shared world origins right) {id answer : PromiseId}
    (paired : world.promises id answer) (pending : (right.promise answer).value = none)
    {caller : Frame} {other : Nat} (enough : 2 * caller.room shared.limit ≤ other) {result : Value}
    {middle reached : State}
    (computed : (right.promise answer).compute (.under runPromiseByName other) caller right =
      .ok result reached) {wider : World} (within : world.Within wider)
    (relates : (byNeed shared).Relates wider middle reached) {value : Value}
    (alike : value.Alike shared wider.toPairing result) :
    (byNeed shared).Relates wider (middle.resolve id value) reached := by
  obtain ⟨more, after, kept⟩ := relates
  have still := within.pairing.promises paired
  have around := coupled.alike.converse.comp coupled.alike
  have own : (world.toPairing.converse.comp world.toPairing).promises answer answer := ⟨id, paired, paired⟩
  -- The run by name is compared with itself to learn that it has changed nothing that was there.
  have grew : right.ExtendsTo reached := by
    rcases compute_again hostless around (around.promises own).2.2 computed enough with
      ⟨failure, _, _, failed⟩ | ⟨_, _, _, _, again, _, _, grown, _⟩
    · cases computed.symm.trans failed
    · cases computed.symm.trans again
      exact grown
  have unmade : (({ middle with promises := more } : State).promise id).value = none := by
    rcases (after.alike.promises still).2.2.settled with ⟨_, _, _, settled, _⟩ | ⟨unmade, _⟩
    · rw [grew.promise (coupled.promises paired).2, pending] at settled
      cases settled
    · exact unmade
  have sized : more.size = (middle.resolve id value).promises.size := by
    simpa [State.resolve] using after.sized
  refine ⟨more, ⟨after.alike, sized, after.operands, after.unique⟩, fun other made => ?_⟩
  by_cases this : id = other
  · subst this
    have resolved := State.promise_resolve_self (after.promises still).1 value
    have yielded : reached.Yielded shared answer result := .computed around own computed grew (.refl reached)
    exact .inr ⟨unmade, value, answer, result, resolved, still, yielded, alike⟩
  · have present : middle.HasPromise other := by simpa [State.HasPromise, State.resolve] using made
    have own := middle.promise_resolve_of_ne this value
    exact (kept other present).later own rfl (.refl wider) (.refl reached)

theorem byNeed_promisesAgree (hostless : ∀ id header, ¬ shared.hosts id header) {budget other : Nat}
    (lower : (byNeed shared).AgreesBelow runPromise runPromiseByName budget) :
    (byNeed shared).PromisesAgree runPromise runPromiseByName budget other := by
  intro world left right id answer frame caller relates paired aligned funded
  have relates' := relates
  obtain ⟨origins, coupled, kept⟩ := relates'
  obtain ⟨made, _, same⟩ := coupled.alike.promises paired
  have present : left.HasPromise id := Nat.lt_of_lt_of_eq made coupled.sized
  rcases kept id present with own | ⟨unmade, value, known, result, resolved, also, yielded, alike⟩
  · rw [← own] at same
    rcases same.settled with ⟨value, result, resolved, settled, alike⟩ | ⟨pending, unsettled⟩
    · rw [runPromise_of_value resolved, runPromiseByName_of_value settled]
      exact relates.matched_push aligned.stack alike
    · rw [runPromise_of_pending pending, runPromiseByName_of_pending unsettled]
      have computed := AgreesBelow.compute lower relates same aligned.level funded
      refine computed.bind_both fun _ ran within after alike => ?_
      have stored := byNeed_store hostless coupled paired unsettled funded.right ran within after alike
      exact (stored.mark _ _ (Nat.le_refl _) (Nat.le_refl _)).matched_push (aligned.mono within).stack alike
  -- Here the runs part: by need there is a value already, and by name the body is run once more.
  · rcases same.settled with ⟨other, _, filled, _, _⟩ | ⟨_, unsettled⟩
    · cases unmade.symm.trans filled
    · rw [runPromise_of_value (congrArg Promise.value resolved), runPromiseByName_of_pending unsettled]
      exact byNeed_kept hostless coupled kept paired also aligned funded.right yielded alike

theorem byNeed_agrees (hostless : ∀ id header, ¬ shared.hosts id header) (budget other : Nat) :
    (byNeed shared).Agrees runPromise runPromiseByName budget other :=
  agrees_of_promises hostless (fun _ _ lower => byNeed_promisesAgree hostless lower) budget other

end Bond

def State.executing (state : State) (steps : Nat) : State :=
  { state with
    operandStacks := state.operandStacks.push []
    log := state.log.push (.executing steps) }

def State.topFrame (state : State) (scope : ScopeId) : Frame :=
  ⟨scope, ⟨state.operandStacks.size⟩, 0⟩

theorem Environment.executeUnder_apply (policy : Policy) (environment : Environment) (code : List Step)
    (state : State) :
    environment.executeUnder policy code state =
      (executeSteps (Callable.callUnder policy (callBudget state.callLimit 0))
          (state.topFrame environment.globals) code >>= fun _ => do
        return (← get).stackValues (state.topFrame environment.globals).stack)
        (state.executing code.length) :=
  rfl

/-- States are alike but that in the left one promises may have come to their values since. -/
def State.AlikeButResolved (shared : Shared) (pairing : Pairing) (left right : State) : Prop :=
  ∃ origins, ({ left with promises := origins } : State).Alike shared pairing right ∧
    ∀ id, left.HasPromise id →
      left.promise id = ({ left with promises := origins } : State).promise id ∨
      (({ left with promises := origins } : State).promise id).value = none ∧ (left.promise id).value.isSome

namespace Bond

variable {shared : Shared} {pairing : Pairing} {state : State}

def topWorld (pairing : Pairing) (state : State) : World :=
  ⟨pairing, fun stack other => stack = ⟨state.operandStacks.size⟩ ∧ other = ⟨state.operandStacks.size⟩⟩

theorem byNeed_begins (closed : state.Alike shared pairing state) (steps : Nat) :
    (byNeed shared).Relates (topWorld pairing state) (state.executing steps) (state.executing steps) := by
  have grown : state.ExtendsTo (state.executing steps) := { State.ExtendsTo.refl state with }
  refine ⟨state.promises, ⟨closed.extend grown grown, rfl, ?_, ?_⟩, fun _ _ => .inl rfl⟩
  · rintro stack other ⟨rfl, rfl⟩
    have made : (state.executing steps).HasStack ⟨state.operandStacks.size⟩ := by
      simp [State.HasStack, State.executing]
    have empty : (state.executing steps).operands ⟨state.operandStacks.size⟩ = [] := by
      simp [State.operands, State.executing]
    rw [empty]
    exact ⟨made, made, .nil⟩
  · rintro _ _ _ _ ⟨rfl, rfl⟩ ⟨rfl, rfl⟩
    exact ⟨fun _ => rfl, fun _ => rfl⟩

theorem byNeed_executes (hostless : ∀ id header, ¬ shared.hosts id header) (environment : Environment)
    {code : List Step} (closed : state.Alike shared pairing state)
    (globals : pairing.scopes environment.globals environment.globals)
    (shares : CodeShared shared pairing code) :
    (byNeed shared).Matched (topWorld pairing state)
      (fun world => List.Forall₂ (Values shared world)) (environment.execute code state)
      (environment.executeUnder runPromiseByName code state) := by
  rw [← Environment.executeUnder_runPromise, Environment.executeUnder_apply, Environment.executeUnder_apply]
  have aligned : (byNeed shared).Aligned (topWorld pairing state) (state.topFrame environment.globals)
      (state.topFrame environment.globals) :=
    ⟨globals, ⟨rfl, rfl⟩, ⟨.inl (Int.le_refl _), .inl (Int.le_refl _)⟩⟩
  have enough : 2 * (state.topFrame environment.globals).room shared.limit + 1 ≤
      callBudget state.callLimit 0 := by
    rw [← closed.callLimit.1]
    exact Moment.ofCode_supplied (state.topFrame environment.globals) code state
  have agrees : (byNeed shared).Agrees runPromise runPromiseByName _ _ :=
    byNeed_agrees hostless (callBudget state.callLimit 0) (callBudget state.callLimit 0)
  have begins := byNeed_begins closed code.length
  have steps := Agrees.steps agrees begins shares aligned ⟨.inl enough, enough⟩
  refine aligned.bind steps fun _ _ relates aligned _ => relates.ends ?_
  exact List.forall₂_reverse_iff.mpr (relates.operands aligned.stack).2.2

theorem Relates.alikeButResolved {world : World} {left right : State}
    (relates : (byNeed shared).Relates world left right) :
    left.AlikeButResolved shared world.toPairing right := by
  obtain ⟨origins, coupled, kept⟩ := relates
  refine ⟨origins, coupled.alike, fun id made => ?_⟩
  refine (kept id made).imp_right ?_
  rintro ⟨pending, value, _, _, resolved, _⟩
  exact ⟨pending, by rw [resolved]; rfl⟩

end Bond

def constantTwelve : Value :=
  ⟨⟨0⟩, .int, .int 12, 5⟩

def promisedDozen : State :=
  { State.empty 9 with
    scopes := #[⟨[("dozen", .callable (.promise ⟨0⟩)), ("again", .callable (.promise ⟨1⟩))], none⟩]
    promises := #[.pending ⟨0⟩ [.push constantTwelve], .pending ⟨0⟩ [.get "dozen"]]
    nextIdentity := 6 }

def sharingDozen : Shared :=
  ⟨fun name => name = "dozen" ∨ name = "again", fun domain => domain = ⟨0⟩, fun identity => identity = 0,
    fun _ _ => False, 9⟩

abbrev pairingDozen : Pairing :=
  .diagonal (· = ⟨0⟩) fun id => id = ⟨0⟩ ∨ id = ⟨1⟩

theorem promisedDozen_alike : promisedDozen.Alike sharingDozen pairingDozen promisedDozen where
  scopes paired := by
    obtain ⟨rfl, rfl⟩ := paired
    refine ⟨⟨by decide, by rintro _ ⟨⟩⟩, ⟨by decide, by rintro _ ⟨⟩⟩, .none, ?_⟩
    rintro _ (rfl | rfl)
    · exact .some (.callable (.promise ⟨rfl, .inl rfl⟩))
    · exact .some (.callable (.promise ⟨rfl, .inr rfl⟩))
  promises paired := by
    obtain ⟨rfl, rfl | rfl⟩ := paired
    · refine ⟨by decide, by decide, .some ⟨rfl, rfl⟩, rfl, .push ?_ .nil, .none⟩
      exact .made rfl (.atom rfl) fun _ _ => Iff.rfl
    · exact ⟨by decide, by decide, .some ⟨rfl, rfl⟩, rfl, .get (.inl rfl) .nil, .none⟩
  domains known := by
    subst known
    exact ⟨rfl, rfl⟩
  nulls meant := by
    subst meant
    exact ⟨by decide, by decide⟩
  callLimit := ⟨rfl, rfl⟩

def selfResolving : State :=
  { State.empty 9 with
    domains := #[⟨standardNames, ⟨⟨0⟩, .null, .null true, 0⟩⟩]
    scopes := #[⟨[("self", .value ⟨⟨0⟩, .callable, .callable (.promise ⟨0⟩), 1⟩), ("force", .callable .force),
      ("closure", .callable (.makeClosure ⟨0⟩))], none⟩]
    promises := #[.pending ⟨0⟩ [.get "self"]]
    nextIdentity := 2 }

end LazyStack
