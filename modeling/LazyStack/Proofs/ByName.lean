import LazyStack.Environment
import LazyStack.Proofs.Comparison
import LazyStack.Proofs.Termination

/-!
Calling by name. The evaluator is taken with other ways to call a promise, among them one that runs the body
of a pending promise at each call and never keeps its value. Two evaluators of this kind agree along a bond
wherever their ways to call promises do. So a promise called by name comes to like values in states that
correspond, unless it is cut off for its depth.
-/

namespace LazyStack

abbrev Policy := Machine → PromiseId → Frame → Run Unit

/-- A pending promise runs its body at each call and never keeps the value. -/
def runPromiseByName : Policy := fun machine id frame => do
  let promise := (← get).promise id
  match promise.value with
  | some value => frame.stack.push value
  | none => frame.stack.push (← promise.compute machine frame)

namespace Callable

def runUnder (policy : Policy) (machine : Machine) (frame : Frame) (args returns : Option Int) :
    Callable → Run Unit
  | .promise id => policy machine id frame
  | target => target.runBody machine frame args returns

def onceUnder (policy : Policy) (machine : Machine) : Invoke := fun target frame args returns =>
  target.checked frame args returns (target.runUnder policy machine frame args returns)

def callUnder (policy : Policy) : Nat → Invoke
  | 0 => onceUnder policy .stopped
  | budget + 1 => onceUnder policy (.ofCalls (callUnder policy budget))

end Callable

def Machine.under (policy : Policy) : Nat → Machine
  | 0 => .stopped
  | budget + 1 => .ofCalls (Callable.callUnder policy budget)

theorem Callable.callUnder_eq (policy : Policy) (budget : Nat) :
    callUnder policy budget = onceUnder policy (.under policy budget) := by
  cases budget <;> rfl

def Environment.executeUnder (policy : Policy) (environment : Environment) (code : List Step) :
    Run (List Value) := do
  let frame ← Run.newTopFrame environment.globals
  Run.record (.executing code.length)
  executeSteps (Callable.callUnder policy (callBudget (← get).callLimit frame.depth)) frame code
  return (← get).stackValues frame.stack

theorem Callable.runUnder_runPromise (machine : Machine) (frame : Frame) (args returns : Option Int)
    (target : Callable) :
    target.runUnder runPromise machine frame args returns = target.runBody machine frame args returns := by
  cases target <;> rfl

theorem Callable.callUnder_runPromise (budget : Nat) : callUnder runPromise budget = callWithin budget := by
  have once (machine : Machine) : onceUnder runPromise machine = callOnce machine := by
    funext target frame args returns
    rw [onceUnder, runUnder_runPromise, callOnce_eq]
  induction budget with
  | zero => rw [callUnder, callWithin, once]
  | succ budget ih => rw [callUnder, callWithin, once, ih]

theorem Environment.executeUnder_runPromise (environment : Environment) (code : List Step) :
    environment.executeUnder runPromise code = environment.execute code := by
  have calls : Callable.callUnder runPromise = Callable.callWithin := funext Callable.callUnder_runPromise
  rw [executeUnder, calls, execute]
  rfl

namespace Bond

variable {shared : Shared} (bond : Bond shared)

/-- The budgets are enough for what runs on two frames, but that of a left side that may be cut off. -/
structure Funded (extra : Nat) (frame caller : Frame) (budget other : Nat) : Prop where
  left : 2 * frame.room shared.limit + extra ≤ budget ∨ bond.lenientLeft
  right : 2 * caller.room shared.limit + extra ≤ other

def Agrees (policy rule : Policy) (budget other : Nat) : Prop :=
  ∀ {world left right target answer frame caller args returns}, bond.Relates world left right →
    Callable.Alike shared world.toPairing target answer → bond.Aligned world frame caller →
    bond.Funded (if args = some 0 then 0 else target.forcing) frame caller budget other →
    bond.Matched world Any (Callable.callUnder policy budget target frame args returns left)
      (Callable.callUnder rule other answer caller args returns right)

def PromisesAgree (policy rule : Policy) (budget other : Nat) : Prop :=
  ∀ {world left right id answer frame caller}, bond.Relates world left right →
    world.promises id answer → bond.Aligned world frame caller → bond.Funded 0 frame caller budget other →
    bond.Matched world Any (policy (.under policy budget) id frame left)
      (rule (.under rule other) answer caller right)

variable {bond} {extra budget other : Nat} {frame caller inner entered : Frame}

theorem Funded.less (funded : bond.Funded extra frame caller budget other) {fewer : Nat}
    (less : fewer ≤ extra) : bond.Funded fewer frame caller budget other :=
  ⟨funded.left.imp_left fun enough => by omega, by have enough := funded.right; omega⟩

theorem Funded.deeper (funded : bond.Funded 0 frame caller budget other)
    (below : inner.depth = frame.depth + 1 ∧ frame.depth + 1 ≤ (shared.limit : Int))
    (also : entered.depth = caller.depth + 1 ∧ caller.depth + 1 ≤ (shared.limit : Int)) :
    bond.Funded 2 inner entered budget other := by
  obtain ⟨left, right⟩ := funded
  obtain ⟨one, shallow⟩ := below
  obtain ⟨two, low⟩ := also
  rw [Frame.room] at left right
  refine ⟨left.imp_left fun enough => ?_, ?_⟩ <;> rw [Frame.room]
  · rw [one]
    omega
  · rw [two]
    omega

theorem Funded.spend (funded : bond.Funded (extra + 1) frame caller budget other) :
    budget = 0 ∧ bond.lenientLeft ∨
      ∃ smaller fewer, budget = smaller + 1 ∧ other = fewer + 1 ∧
        bond.Funded extra frame caller smaller fewer := by
  obtain ⟨enough, plenty⟩ := funded
  cases budget with
  | zero => exact .inl ⟨rfl, enough.resolve_left (by omega)⟩
  | succ smaller =>
      cases other with
      | zero => omega
      | succ fewer =>
          exact .inr ⟨smaller, fewer, rfl, rfl, enough.imp_left Nat.le_of_succ_le_succ,
            Nat.le_of_succ_le_succ plenty⟩

variable {policy rule : Policy} {world : World} {left right : State}

theorem Agrees.steps (agrees : bond.Agrees policy rule budget other) {code : List Step}
    (relates : bond.Relates world left right) (shares : CodeShared shared world.toPairing code)
    (aligned : bond.Aligned world frame caller) (funded : bond.Funded 1 frame caller budget other) :
    bond.Matched world Any (executeSteps (Callable.callUnder policy budget) frame code left)
      (executeSteps (Callable.callUnder rule other) caller code right) := by
  induction code generalizing world left right with
  | nil => exact relates.ends trivial
  | cons step rest ih =>
      obtain ⟨first, later⟩ := shares.single
      have stepped := relates.matched_step aligned first fun _ relates aligned alike =>
        agrees relates alike aligned <| funded.less <| by
          split
          · exact Nat.zero_le 1
          · exact Moment.forcing_le_one _
      exact aligned.bind stepped fun _ within relates aligned _ =>
        ih relates (later.mono within.pairing) aligned

abbrev AgreesBelow (bond : Bond shared) (policy rule : Policy) (budget : Nat) : Prop :=
  ∀ smaller < budget, ∀ other, bond.Agrees policy rule smaller other

section Below

variable (lower : bond.AgreesBelow policy rule budget)
include lower

theorem AgreesBelow.run {code : List Step} (relates : bond.Relates world left right)
    (shares : CodeShared shared world.toPairing code) (aligned : bond.Aligned world frame caller)
    (funded : bond.Funded 2 frame caller budget other) :
    bond.Matched world Any ((Machine.under policy budget).run frame code left)
      ((Machine.under rule other).run caller code right) := by
  rcases funded.spend with ⟨rfl, lenient⟩ | ⟨smaller, fewer, rfl, rfl, spent⟩
  · exact .cutLeft lenient (.inr rfl)
  · have agrees : bond.Agrees policy rule smaller fewer := lower smaller (Nat.lt_succ_self smaller) fewer
    exact Agrees.steps agrees relates shares aligned spent

theorem AgreesBelow.call {target answer : Callable} (relates : bond.Relates world left right)
    (alike : target.Alike shared world.toPairing answer) (aligned : bond.Aligned world frame caller)
    (funded : bond.Funded 1 frame caller budget other) :
    bond.Matched world Any ((Machine.under policy budget).call target frame (some 0) (some 1) left)
      ((Machine.under rule other).call answer caller (some 0) (some 1) right) := by
  rcases funded.spend with ⟨rfl, lenient⟩ | ⟨smaller, fewer, rfl, rfl, spent⟩
  · exact .cutLeft lenient (.inr rfl)
  · exact lower smaller (Nat.lt_succ_self smaller) fewer relates alike aligned spent

theorem AgreesBelow.compute {promise answer : Promise} (relates : bond.Relates world left right)
    (alike : promise.Alike shared world.toPairing answer) (level : bond.Level frame caller)
    (funded : bond.Funded 0 frame caller budget other) :
    bond.Matched world (Values shared) (promise.compute (.under policy budget) frame left)
      (answer.compute (.under rule other) caller right) := by
  refine relates.matched_compute alike.scope alike.body level fun entered begun within after inner => ?_
  obtain ⟨own, limit⟩ := relates.callLimit
  have below := enterPromise_deeper entered
  have also := enterPromise_deeper begun
  rw [own] at below
  rw [limit] at also
  exact lower.run after (alike.code.mono within.pairing) inner (funded.deeper below also)

theorem AgreesBelow.closure {scope around : ScopeId} {code : List Step} {parameters : List String}
    (relates : bond.Relates world left right) (paired : world.scopes scope around)
    (shares : CodeShared shared world.toPairing code) (aligned : bond.Aligned world frame caller)
    (funded : bond.Funded 0 frame caller budget other) :
    bond.Matched world Any (runClosure (.under policy budget) scope code parameters frame left)
      (runClosure (.under rule other) around code parameters caller right) := by
  refine relates.matched_runClosure aligned paired code parameters
    fun entered begun within after inner => ?_
  obtain ⟨own, limit⟩ := relates.callLimit
  have below := enterClosure_deeper entered
  have also := enterClosure_deeper begun
  rw [own] at below
  rw [limit] at also
  exact lower.run after (shares.mono within.pairing) inner (funded.deeper below also)

end Below

/-- Where no host is among what two sides have in common, their calls agree if their ways to call promises
do, given that calls within smaller budgets agree. -/
theorem agrees_of_promises (hostless : ∀ id header, ¬ shared.hosts id header)
    (promises : ∀ budget other, bond.AgreesBelow policy rule budget →
      bond.PromisesAgree policy rule budget other) (budget other : Nat) :
    bond.Agrees policy rule budget other := by
  induction budget using Nat.strongRecOn generalizing other with
  | ind budget lower =>
  -- What a call runs, it runs within a smaller budget on the left, so no side is taken apart any further.
  intro world left right target answer frame caller args returns relates alike aligned funded
  rw [Callable.callUnder_eq, Callable.callUnder_eq]
  refine relates.matched_checked aligned alike fun admitted => ?_
  have funded : bond.Funded target.forcing frame caller budget other := by
    by_cases bare : args = some 0
    · rw [if_pos bare, ← Moment.forcing_of_admits admitted bare] at funded
      exact funded
    · rw [if_neg bare] at funded
      exact funded
  cases alike with
  | closure paired shares => exact AgreesBelow.closure lower relates paired shares aligned funded
  | promise paired => exact promises budget other lower relates paired aligned funded
  | makeClosure known => exact relates.matched_runMakeClosure aligned known
  | delay => exact relates.matched_runDelay aligned
  | force =>
      exact relates.matched_runForce aligned fun _ _ relates aligned alike =>
        AgreesBelow.call lower relates alike aligned funded
  | isPromise => exact relates.matched_runIsPromise aligned
  | host known => exact (hostless _ _ known).elim

end Bond

theorem runPromiseByName_of_value {machine : Machine} {id : PromiseId} {frame : Frame} {state : State}
    {value : Value} (resolved : (state.promise id).value = some value) :
    runPromiseByName machine id frame state = frame.stack.push value state := by
  rw [runPromiseByName, Run.bind_of_ok (Run.get_apply state), resolved]

theorem runPromiseByName_of_pending {machine : Machine} {id : PromiseId} {frame : Frame} {state : State}
    (pending : (state.promise id).value = none) :
    runPromiseByName machine id frame state =
      ((state.promise id).compute machine frame >>= frame.stack.push) state := by
  rw [runPromiseByName, Run.bind_of_ok (Run.get_apply state), pending]

/-- What a run by name keeps of the state in which it started: all that was there, but for its own stacks. -/
structure Reruns (start : State) (world : World) (origins : Array Promise) (left right : State) : Prop where
  origins : origins = left.promises
  grown : start.ExtendsTo right
  aside : start.SetsAside right fun other => ∃ stack, world.operandStacks stack other

namespace Bond

def reruns (shared : Shared) (start : State) : Bond shared where
  keeps := Reruns start
  lenientLeft := True
  lenientRight := True
  wordless := False
  outdated kept _ _ := .inl (by rw [kept.origins])
  operate values others _ kept paired :=
    { origins := kept.origins
      grown := kept.grown.trans (.setOperands _ _ others)
      aside := kept.aside.setOperands ⟨_, paired⟩ others }
  mark log events _ _ _ further kept :=
    { origins := kept.origins
      grown := kept.grown.trans (.marked _ events further)
      aside := kept.aside.of_same rfl }
  openFrame opened other _ kept :=
    { origins := kept.origins
      grown := kept.grown.trans (.opening _ other)
      aside := kept.aside.opening other <| by
        rintro stack ⟨other, old | ⟨rfl, rfl⟩⟩
        · exact .inl ⟨other, old⟩
        · exact .inr rfl }
  delay promise other _ kept :=
    { origins := by rw [kept.origins, State.delaying]
      grown := kept.grown.trans (.delaying _ other)
      aside := kept.aside.of_same rfl }

variable {shared : Shared} {start : State}

theorem reruns_level (frame caller : Frame) : (reruns shared start).Level frame caller :=
  ⟨.inr trivial, .inr trivial⟩

theorem reruns_alike {world : World} {left right : State}
    (relates : (reruns shared start).Relates world left right) :
    left.Alike shared world.toPairing right ∧ Reruns start world left.promises left right :=
  relates.alike_of_origins fun kept => kept.origins

theorem reruns_agree (hostless : ∀ id header, ¬ shared.hosts id header) (budget other : Nat) :
    (reruns shared start).Agrees runPromiseByName runPromiseByName budget other := by
  refine agrees_of_promises hostless (fun budget other lower => ?_) budget other
  intro world left right id answer frame caller relates paired aligned funded
  obtain ⟨_, _, same⟩ := (reruns_alike relates).1.promises paired
  rcases same.settled with ⟨value, result, resolved, settled, alike⟩ | ⟨pending, unsettled⟩
  · rw [runPromiseByName_of_value resolved, runPromiseByName_of_value settled]
    exact relates.matched_push aligned.stack alike
  · rw [runPromiseByName_of_pending pending, runPromiseByName_of_pending unsettled]
    have computed := AgreesBelow.compute lower relates same aligned.level funded
    exact aligned.bind computed fun _ _ relates aligned alike => relates.matched_push aligned.stack alike

theorem reruns_relates {pairing : Pairing} {left : State} (alike : left.Alike shared pairing start) :
    (reruns shared start).Relates ⟨pairing, fun _ _ => False⟩ left start :=
  ⟨left.promises, .of_alike alike,
    { origins := rfl
      grown := .refl start
      aside := .refl start fun _ used => used.elim fun _ => id }⟩

end Bond

/-- The body of a promise that has come to a value by name comes to a like value by name in any state that corresponds,
and changes nothing that was there. -/
theorem compute_again {shared : Shared} {pairing : Pairing} {first last start : State}
    (hostless : ∀ id header, ¬ shared.hosts id header) (alike : first.Alike shared pairing start)
    {promise answer : Promise} (same : promise.Alike shared pairing answer) {budget other : Nat}
    {frame caller : Frame} {value : Value}
    (computed : promise.compute (.under runPromiseByName budget) frame first = .ok value last)
    (enough : 2 * caller.room shared.limit ≤ other) :
    (∃ failure reached, failure.kind = .recursion ∧
      answer.compute (.under runPromiseByName other) caller start = .error failure reached) ∨
    ∃ wider result reached, pairing.Within wider ∧
      answer.compute (.under runPromiseByName other) caller start = .ok result reached ∧
      last.Alike shared wider reached ∧ value.Alike shared wider result ∧ start.ExtendsTo reached ∧
      ∀ stack, start.HasStack stack →
        reached.HasStack stack ∧ reached.operands stack = start.operands stack := by
  have lower : (Bond.reruns shared start).AgreesBelow runPromiseByName runPromiseByName budget :=
    fun smaller _ other => Bond.reruns_agree hostless smaller other
  have matched := Bond.AgreesBelow.compute lower (Bond.reruns_relates alike) same
    (Bond.reruns_level frame caller) ⟨.inr trivial, enough⟩
  rw [computed] at matched
  generalize answer.compute (.under runPromiseByName other) caller start = outcome at matched ⊢
  cases matched with
  | cutRight _ deep => exact .inl ⟨_, _, deep, rfl⟩
  | ends within relates fits =>
      obtain ⟨alike, kept⟩ := Bond.reruns_alike relates
      refine .inr ⟨_, _, _, within.pairing, rfl, alike, fits, kept.grown, fun stack made => ?_⟩
      exact ⟨Nat.lt_of_lt_of_le made kept.aside.size, (kept.aside.operands made).1⟩

end LazyStack
