import LazyStack.Proofs.Comparison
import LazyStack.Proofs.Moment

/-!
Twin runs. Two runs of the same code from states that correspond, on frames of the same depth, stay in
step: both end well or fail with errors of one kind, what they make corresponds, and they resolve the same
promises. Stacks and promises that they had from the start and do not share stay as they were.
-/

namespace LazyStack

def Moment.RunsCore (shared : Shared) (whole : Moment) : Prop :=
  ∀ id header, shared.hosts id header → ∀ inner, whole.Reaches inner → ∀ frame args returns,
    inner.activity ≠ .body (.host id header) frame args returns

theorem Moment.RunsCore.part {shared : Shared} {whole part : Moment} (core : whole.RunsCore shared)
    (starts : whole.Starts part) : part.RunsCore shared :=
  fun id header known inner reached => core id header known inner (.inside starts reached)

def Pairing.OneToOne (pairing : Pairing) : Prop :=
  ∀ {one two id other}, pairing.promises one two → pairing.promises id other → (one = id ↔ two = other)

theorem State.Alike.resolve {shared : Shared} {pairing : Pairing} {left right : State}
    (alike : left.Alike shared pairing right) (oneToOne : pairing.OneToOne) {id other : PromiseId}
    (paired : pairing.promises id other) {value answer : Value}
    (same : value.Alike shared pairing answer) :
    (left.resolve id value).Alike shared pairing (right.resolve other answer) where
  scopes := alike.scopes
  promises {one two} also := by
    obtain ⟨made, there, like⟩ := alike.promises also
    refine ⟨by simpa [State.HasPromise, State.resolve] using made,
      by simpa [State.HasPromise, State.resolve] using there, ?_⟩
    by_cases this : id = one
    · have that := (oneToOne paired also).mp this
      subst this
      subst that
      rw [State.promise_resolve_self made, State.promise_resolve_self there]
      exact ⟨.none, rfl, .nil, .some same⟩
    · have apart : other ≠ two := fun equal => this ((oneToOne paired also).mpr equal)
      rw [left.promise_resolve_of_ne this, right.promise_resolve_of_ne apart]
      exact like
  domains := alike.domains
  nulls := alike.nulls
  callLimit := alike.callLimit

/-- From one state to another no promise changes but free ones, and only such are reached. -/
structure State.Seals (before after : State) (free reached : PromiseId → Prop) : Prop where
  size : before.promises.size ≤ after.promises.size
  promise {id : PromiseId} : before.HasPromise id → ¬ free id →
    after.promise id = before.promise id ∧ ¬ reached id

namespace State.Seals

variable {before after : State} {free reached : PromiseId → Prop}
  (seals : before.Seals after free reached)
include seals

theorem of_same {later : State} (same : later.promises = after.promises) :
    before.Seals later free reached where
  size := same ▸ seals.size
  promise made closed := by
    rw [State.promise, same]
    exact seals.promise made closed

theorem delaying (promise : Promise) {more : PromiseId → Prop}
    (own : ∀ {id}, more id → reached id ∨ id = ⟨after.promises.size⟩) :
    before.Seals (after.delaying promise) free more where
  size := by simpa [State.delaying] using Nat.le_succ_of_le seals.size
  promise made closed := by
    obtain ⟨same, apart⟩ := seals.promise made closed
    have still := Nat.lt_of_lt_of_le made seals.size
    refine ⟨by rw [(ExtendsTo.delaying after promise).promise still, same], fun reached => ?_⟩
    rcases own reached with old | rfl
    · exact apart old
    · exact Nat.lt_irrefl _ still

theorem resolve {id : PromiseId} (own : reached id) (value : Value) :
    before.Seals (after.resolve id value) free reached where
  size := by simpa [State.resolve] using seals.size
  promise {other} made closed := by
    obtain ⟨same, apart⟩ := seals.promise made closed
    have distinct : id ≠ other := fun equal => apart (equal ▸ own)
    exact ⟨(after.promise_resolve_of_ne distinct value).trans same, apart⟩

end State.Seals

/-- What two runs keep between them that started together, besides their correspondence. -/
structure Entwined (pairing : Pairing) (first second : State) (world : World) (origins : Array Promise)
    (left right : State) : Prop where
  origins : origins = left.promises
  oneToOne : world.OneToOne
  seals : first.Seals left (fun id => ∃ other, pairing.promises id other)
    fun id => ∃ other, world.promises id other
  sealsToo : second.Seals right (fun other => ∃ id, pairing.promises id other)
    fun other => ∃ id, world.promises id other
  aside : first.SetsAside left fun stack => ∃ other, world.operandStacks stack other
  asideToo : second.SetsAside right fun other => ∃ stack, world.operandStacks stack other

section Entwined

variable {shared : Shared} {pairing : Pairing} {first second left right : State} {world : World}
  {origins : Array Promise} (kept : Entwined pairing first second world origins left right)
include kept

theorem Entwined.openFrame (opened other : Scope) :
    Entwined pairing first second (world.opening left right) origins (left.opening opened)
      (right.opening other) where
  origins := kept.origins
  oneToOne := kept.oneToOne
  seals := kept.seals.of_same rfl
  sealsToo := kept.sealsToo.of_same rfl
  aside := kept.aside.opening opened <| by
    rintro stack ⟨other, old | ⟨rfl, rfl⟩⟩
    · exact .inl ⟨other, old⟩
    · exact .inr rfl
  asideToo := kept.asideToo.opening other <| by
    rintro stack ⟨other, old | ⟨rfl, rfl⟩⟩
    · exact .inl ⟨other, old⟩
    · exact .inr rfl

theorem Entwined.delay (coupled : left.Coupled shared world origins right) (promise other : Promise) :
    Entwined pairing first second (world.delaying left right) (origins.push promise) (left.delaying promise)
      (right.delaying other) where
  origins := by rw [kept.origins, State.delaying]
  oneToOne := by
    rintro one two id other (old | ⟨rfl, rfl⟩) (also | ⟨rfl, rfl⟩)
    · exact kept.oneToOne old also
    · obtain ⟨present, there⟩ := coupled.promises old
      refine iff_of_false ?_ ?_ <;> rintro rfl
      · exact Nat.lt_irrefl _ present
      · exact Nat.lt_irrefl _ there
    · obtain ⟨present, there⟩ := coupled.promises also
      refine iff_of_false ?_ ?_ <;> rintro rfl
      · exact Nat.lt_irrefl _ present
      · exact Nat.lt_irrefl _ there
    · exact Iff.intro (fun _ => rfl) fun _ => rfl
  seals := kept.seals.delaying promise <| by
    rintro id ⟨other, old | ⟨rfl, rfl⟩⟩
    · exact .inl ⟨other, old⟩
    · exact .inr rfl
  sealsToo := kept.sealsToo.delaying other <| by
    rintro id ⟨other, old | ⟨rfl, rfl⟩⟩
    · exact .inl ⟨other, old⟩
    · exact .inr rfl
  aside := kept.aside.of_same rfl
  asideToo := kept.asideToo.of_same rfl

end Entwined

def Bond.twins (shared : Shared) (pairing : Pairing) (first second : State) : Bond shared where
  keeps := Entwined pairing first second
  lenientLeft := False
  lenientRight := False
  wordless := False
  outdated kept _ _ := .inl (by rw [kept.origins])
  operate values others _ kept paired :=
    { kept with
      seals := kept.seals.of_same rfl
      sealsToo := kept.sealsToo.of_same rfl
      aside := kept.aside.setOperands ⟨_, paired⟩ values
      asideToo := kept.asideToo.setOperands ⟨_, paired⟩ others }
  mark _ _ _ _ _ _ kept :=
    { kept with
      seals := kept.seals.of_same rfl
      sealsToo := kept.sealsToo.of_same rfl
      aside := kept.aside.of_same rfl
      asideToo := kept.asideToo.of_same rfl }
  openFrame opened other _ kept := kept.openFrame opened other
  delay promise other coupled kept := kept.delay coupled promise other

namespace Bond

variable {shared : Shared} {pairing : Pairing} {first second left right : State} {world : World}

theorem twins_level {frame caller : Frame} (same : frame.depth = caller.depth) :
    (twins shared pairing first second).Level frame caller :=
  ⟨.inl (Int.le_of_eq same), .inl (Int.le_of_eq same.symm)⟩

theorem twins_alike (relates : (twins shared pairing first second).Relates world left right) :
    left.Alike shared world.toPairing right ∧ Entwined pairing first second world left.promises left right :=
  relates.alike_of_origins fun kept => kept.origins

theorem Relates.resolve (relates : (twins shared pairing first second).Relates world left right)
    {id other : PromiseId} (paired : world.promises id other) {value answer : Value}
    (alike : Values shared world value answer) :
    (twins shared pairing first second).Relates world (left.resolve id value) (right.resolve other answer) := by
  obtain ⟨origins, coupled, kept⟩ := relates
  have own := kept.origins
  subst own
  refine ⟨(left.resolve id value).promises, ⟨?_, rfl, coupled.operands, coupled.unique⟩, ?_⟩
  · exact coupled.alike.resolve kept.oneToOne paired alike
  · exact
      { kept with
        origins := rfl
        seals := kept.seals.resolve ⟨_, paired⟩ value
        sealsToo := kept.sealsToo.resolve ⟨_, paired⟩ answer
        aside := kept.aside.of_same rfl
        asideToo := kept.asideToo.of_same rfl }

end Bond

inductive Activity.Alike {shared : Shared} (bond : Bond shared) (world : World) : Activity → Activity → Prop
  | call {target other frame caller args returns} :
      target.Alike shared world.toPairing other → bond.Aligned world frame caller →
      Activity.Alike bond world (.call target frame args returns) (.call other caller args returns)
  | body {target other frame caller args returns} :
      target.Alike shared world.toPairing other → bond.Aligned world frame caller →
      Activity.Alike bond world (.body target frame args returns) (.body other caller args returns)
  | step {step frame caller} : CodeShared shared world.toPairing [step] → bond.Aligned world frame caller →
      Activity.Alike bond world (.step frame step) (.step caller step)
  | steps {code frame caller} : CodeShared shared world.toPairing code → bond.Aligned world frame caller →
      Activity.Alike bond world (.steps frame code) (.steps caller code)

namespace Bond

variable {shared : Shared} {pairing : Pairing} {first second left right : State} {world : World}

section Within

variable {bond : Bond shared} (relates : bond.Relates world left right) {budget : Nat}
  {frame caller : Frame}
include relates

theorem Relates.matched_run {code : List Step}
    (nested : ∀ smaller, budget = smaller + 1 →
      bond.Matched world Any ((Activity.steps frame code).run smaller left)
        ((Activity.steps caller code).run smaller right)) :
    bond.Matched world Any ((Machine.within budget).run frame code left)
      ((Machine.within budget).run caller code right) := by
  cases budget with
  | zero => exact relates.fails rfl
  | succ smaller => exact nested smaller rfl

theorem Relates.matched_call {target other : Callable} {args returns : Option Int}
    (nested : ∀ smaller, budget = smaller + 1 →
      bond.Matched world Any ((Activity.call target frame args returns).run smaller left)
        ((Activity.call other caller args returns).run smaller right)) :
    bond.Matched world Any ((Machine.within budget).call target frame args returns left)
      ((Machine.within budget).call other caller args returns right) := by
  cases budget with
  | zero => exact relates.fails rfl
  | succ smaller => exact nested smaller rfl

end Within

section Twins

variable (relates : (twins shared pairing first second).Relates world left right) {frame caller : Frame}
  (aligned : (twins shared pairing first second).Aligned world frame caller)
include relates aligned

theorem Relates.matched_store {id other : PromiseId} (paired : world.promises id other)
    {value answer : Value} (alike : Values shared world value answer) :
    (twins shared pairing first second).Matched world Any
      ((do
        modify fun state => state.resolve id value
        Run.record (.promiseResolved id ((← get).valueText value))
        frame.stack.push value : Run Unit) left)
      ((do
        modify fun state => state.resolve other answer
        Run.record (.promiseResolved other ((← get).valueText answer))
        caller.stack.push answer : Run Unit) right) :=
  ((relates.resolve paired alike).mark _ _ (Nat.le_refl _) (Nat.le_refl _)).matched_push aligned.stack alike

theorem Relates.matched_promise {id other : PromiseId} (paired : world.promises id other)
    {machine answer : Machine}
    (nested : ∀ {wider inner entered middle reached}, (left.promise id).value = none →
      enterPromise (left.promise id).scope frame left = .ok inner middle → world.Within wider →
      (twins shared pairing first second).Relates wider middle reached →
      (twins shared pairing first second).Aligned wider inner entered →
      CodeShared shared wider.toPairing ((left.promise id).body.getD []) →
      (twins shared pairing first second).Matched wider Any
        (machine.run inner ((left.promise id).body.getD []) middle)
        (answer.run entered ((left.promise id).body.getD []) reached)) :
    (twins shared pairing first second).Matched world Any (runPromise machine id frame left)
      (runPromise answer other caller right) := by
  obtain ⟨_, _, same⟩ := (twins_alike relates).1.promises paired
  rcases same.settled with ⟨value, result, resolved, settled, alike⟩ | ⟨pending, unsettled⟩
  · rw [runPromise_of_value resolved, runPromise_of_value settled]
    exact relates.matched_push aligned.stack alike
  · rw [runPromise_of_pending pending, runPromise_of_pending unsettled]
    refine aligned.bind (relates.matched_compute same.scope same.body aligned.level ?_)
      fun _ within relates aligned alike => relates.matched_store aligned (within.pairing.promises paired) alike
    intro wider inner entered middle reached ran _ within relates aligned
    exact nested pending ran within relates aligned (same.code.mono within.pairing)

end Twins

end Bond

theorem Moment.matched {shared : Shared} {pairing : Pairing} {first second : State} (whole : Moment)
    (core : whole.RunsCore shared) {world : World} {right : State} {other : Activity}
    (relates : (Bond.twins shared pairing first second).Relates world whole.state right)
    (alike : whole.activity.Alike (Bond.twins shared pairing first second) world other) :
    (Bond.twins shared pairing first second).Matched world Bond.Any
      (whole.activity.run whole.budget whole.state) (other.run whole.budget right) := by
  induction whole using Moment.induction generalizing world right other with
  | whole whole ih =>
  -- The left side's course is followed part by part, and the right side runs the parts that stand for them.
  have nested (part : Moment) (starts : whole.Starts part) {world : World} {right : State} {other : Activity}
      (relates : (Bond.twins shared pairing first second).Relates world part.state right)
      (alike : part.activity.Alike (Bond.twins shared pairing first second) world other) :=
    ih part starts (core.part starts) relates alike
  obtain ⟨budget, activity, state⟩ := whole
  cases alike with
  | @call target other frame caller args returns alike aligned =>
      rw [Activity.run, Activity.run, Callable.callWithin_eq, Callable.callOnce_eq, Callable.callOnce_eq]
      exact relates.matched_checked aligned alike fun admitted =>
        nested _ (.body admitted) relates (.body alike aligned)
  | @step step frame caller code aligned =>
      refine relates.matched_step aligned code fun asks relates aligned alike => ?_
      cases asks with
      | got bound => exact nested _ (.got bound) relates (.call alike aligned)
      | named bound resolved => exact nested _ (.named bound resolved) relates (.call alike aligned)
  | @steps code frame caller body aligned =>
      cases code with
      | nil => exact relates.ends trivial
      | cons step rest =>
          obtain ⟨first, later⟩ := body.single
          refine aligned.bind (nested _ .first relates (.step first aligned))
            fun executed within relates aligned _ => ?_
          exact nested _ (.rest executed) relates (.steps (later.mono within.pairing) aligned)
  | @body target other frame caller args returns alike aligned =>
      cases alike with
      | closure paired body =>
          refine relates.matched_runClosure aligned paired _ _ fun entered _ within after inner => ?_
          refine after.matched_run fun smaller enough => ?_
          subst enough
          exact nested _ (.closure entered) after (.steps (body.mono within.pairing) inner)
      | promise paired =>
          refine relates.matched_promise aligned paired fun pending entered _ after inner code => ?_
          refine after.matched_run fun smaller enough => ?_
          subst enough
          exact nested _ (.promise pending entered) after (.steps code inner)
      | makeClosure known => exact relates.matched_runMakeClosure aligned known
      | delay => exact relates.matched_runDelay aligned
      | force =>
          refine relates.matched_runForce aligned fun popped expected after aligned alike => ?_
          refine after.matched_call fun smaller enough => ?_
          subst enough
          exact nested _ (.force popped expected) after (.call alike aligned)
      | isPromise => exact relates.matched_runIsPromise aligned
      | host known => exact (core _ _ known _ (.here _) _ _ _ rfl).elim

end LazyStack
