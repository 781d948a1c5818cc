import LazyStack.Proofs.Operation
import LazyStack.Proofs.Twins

/-!
What a call depends on. Two states agree on a closure or a promise, on its arguments and on what they lead
to along names that code looks up. Then calls of it from frames of the same depth, whatever else there is
in the scopes and on the stacks of their callers, end in the same way and resolve the same promises.
-/

namespace LazyStack

def Callable.argumentCount (target : Callable) : Nat :=
  ((target.signature?.map Signature.args).getD 0).toNat

/-- What was alike before two runs is alike after them along a wider pairing, and they have resolved the same promises.
-/
structure State.StaysAlike (shared : Shared) (pairing wider : Pairing) (left right final reached : State) :
    Prop where
  within : pairing.Within wider
  alike : final.Alike shared wider reached
  resolved {id other : PromiseId} : pairing.promises id other →
    ((final.promise id).value.isSome ↔ (reached.promise other).value.isSome)
  left {id : PromiseId} : left.HasPromise id → (¬ ∃ other, pairing.promises id other) →
    final.promise id = left.promise id
  right {other : PromiseId} : right.HasPromise other → (¬ ∃ id, pairing.promises id other) →
    reached.promise other = right.promise other

/-- Two calls return values that are alike in place of their arguments, or fail with errors of one kind. -/
inductive Concur (shared : Shared) (pairing : Pairing) (left right : State) (frame caller : Frame)
    (count : Nat) : EStateM.Result Failure State Unit → EStateM.Result Failure State Unit → Prop
  | returns {wider value answer final reached} :
      State.StaysAlike shared pairing wider left right final reached → value.Alike shared wider answer →
      final.operands frame.stack = value :: (left.operands frame.stack).drop count →
      reached.operands caller.stack = answer :: (right.operands caller.stack).drop count →
      Concur shared pairing left right frame caller count (.ok () final) (.ok () reached)
  | fails {wider failure refusal final reached} :
      State.StaysAlike shared pairing wider left right final reached → failure.kind = refusal.kind →
      Concur shared pairing left right frame caller count (.error failure final) (.error refusal reached)

def State.without (state : State) (stack : StackId) (count : Nat) : State :=
  state.setOperands stack ((state.operands stack).drop count)

section Concur

variable {shared : Shared} {pairing : Pairing} {left right : State} {frame caller : Frame} {count : Nat}

abbrev Bond.callers (shared : Shared) (pairing : Pairing) (left right : State) (frame caller : Frame)
    (count : Nat) : Bond shared :=
  .twins shared pairing (left.without frame.stack count) (right.without caller.stack count)

theorem State.Alike.resolved_iff (alike : left.Alike shared pairing right) {id other : PromiseId}
    (paired : pairing.promises id other) :
    (left.promise id).value.isSome ↔ (right.promise other).value.isSome := by
  obtain ⟨_, _, same⟩ := alike.promises paired
  rcases same.settled with ⟨value, answer, resolved, settled, _⟩ | ⟨pending, unsettled⟩
  · rw [resolved, settled]
    exact Iff.rfl
  · rw [pending, unsettled]

theorem State.StaysAlike.refl (alike : left.Alike shared pairing right) :
    State.StaysAlike shared pairing pairing left right left right :=
  ⟨.refl pairing, alike, alike.resolved_iff, fun _ _ => rfl, fun _ _ => rfl⟩

theorem State.StaysAlike.of_relates {world : World} {final reached : State}
    (within : pairing.Within world.toPairing)
    (relates : (Bond.callers shared pairing left right frame caller count).Relates world final reached) :
    State.StaysAlike shared pairing world.toPairing left right final reached := by
  obtain ⟨alike, kept⟩ := Bond.twins_alike relates
  exact ⟨within, alike, fun paired => alike.resolved_iff (within.promises paired),
    fun made closed => (kept.seals.promise made closed).1,
    fun made closed => (kept.sealsToo.promise made closed).1⟩

theorem State.StaysAlike.setOperands {wider : Pairing} {final reached : State}
    (stays : State.StaysAlike shared pairing wider left right final reached) (stack other : StackId)
    (values others : Operands) :
    State.StaysAlike shared pairing wider left right (final.setOperands stack values)
      (reached.setOperands other others) :=
  { stays with
    alike := stays.alike.extend (.setOperands final stack values) (.setOperands reached other others) }

theorem State.SetsAside.operands_pushed {before after : State} {stack : StackId} {used : StackId → Prop}
    (aside : (before.without stack count).SetsAside after used) (made : before.HasStack stack)
    (value : Value) :
    (after.setOperands stack (value :: after.operands stack)).operands stack =
      value :: (before.operands stack).drop count := by
  have still : (before.without stack count).HasStack stack := State.hasStack_setOperands.mpr made
  have kept : after.HasStack stack := Nat.lt_of_lt_of_le still aside.size
  rw [State.operands_setOperands_self kept, (aside.operands still).1, State.without,
    State.operands_setOperands_self made]

theorem Bond.callers_relates (alike : left.Alike shared pairing right) (oneToOne : pairing.OneToOne) :
    (Bond.callers shared pairing left right frame caller count).Relates ⟨pairing, fun _ _ => False⟩
      (left.without frame.stack count) (right.without caller.stack count) :=
  ⟨left.promises, .of_alike (alike.extend (.setOperands left _ _) (.setOperands right _ _)),
    { origins := rfl
      oneToOne := oneToOne
      seals := ⟨Nat.le_refl _, fun _ closed => ⟨rfl, closed⟩⟩
      sealsToo := ⟨Nat.le_refl _, fun _ closed => ⟨rfl, closed⟩⟩
      aside := .refl _ fun _ used => used.elim fun _ => id
      asideToo := .refl _ fun _ used => used.elim fun _ => id }⟩

theorem concur_of_fails {world : World} {failure refusal : Failure} {final reached : State}
    (within : pairing.Within world.toPairing)
    (relates : (Bond.callers shared pairing left right frame caller count).Relates world final reached)
    (kinds : failure.kind = refusal.kind) :
    Concur shared pairing left right frame caller count (.error failure final) (.error refusal reached) :=
  .fails (.of_relates within relates) kinds

theorem concur_bind {α β : Type} {world : World} {run : Run α} {other : Run β} {next : α → Run Unit}
    {rest : β → Run Unit} {fit : World → α → β → Prop} {start begun : State}
    (within : pairing.Within world.toPairing)
    (first : (Bond.callers shared pairing left right frame caller count).Matched world fit (run start)
      (other begun))
    (later : ∀ {wider result answer middle reached}, pairing.Within wider.toPairing →
      world.Within wider →
      (Bond.callers shared pairing left right frame caller count).Relates wider middle reached →
      fit wider result answer →
      Concur shared pairing left right frame caller count (next result middle) (rest answer reached)) :
    Concur shared pairing left right frame caller count ((run >>= next) start) ((other >>= rest) begun) := by
  rw [Run.bind_apply, Run.bind_apply]
  generalize run start = ended at first
  generalize other begun = answered at first
  cases first with
  | ends further relates fits => exact later (within.trans further.pairing) further relates fits
  | fails further relates alike => exact concur_of_fails (within.trans further.pairing) relates (alike.kind_eq id)
  | cutLeft lenient => exact lenient.elim
  | cutRight lenient => exact lenient.elim

variable (made : left.HasStack frame.stack) (there : right.HasStack caller.stack)
include made there

theorem concur_push {world : World} {final reached : State} (within : pairing.Within world.toPairing)
    (relates : (Bond.callers shared pairing left right frame caller count).Relates world final reached)
    {value answer : Value} (alike : value.Alike shared world.toPairing answer) :
    Concur shared pairing left right frame caller count (frame.stack.push value final)
      (caller.stack.push answer reached) := by
  have kept := (Bond.twins_alike relates).2
  have stays := State.StaysAlike.of_relates within relates
  exact .returns (stays.setOperands _ _ _ _) alike (kept.aside.operands_pushed made value)
    (kept.asideToo.operands_pushed there answer)

theorem concur_closure {scope other : ScopeId} {code : List Step} {parameters : List String}
    (agrees : left.Alike shared pairing right) (oneToOne : pairing.OneToOne)
    (paired : pairing.scopes scope other) (shares : CodeShared shared pairing code)
    (level : frame.depth = caller.depth)
    (arguments : List.Forall₂ (Value.Alike shared pairing)
      ((left.operands frame.stack).take parameters.length)
      ((right.operands caller.stack).take parameters.length))
    (enough : parameters.length ≤ (left.operands frame.stack).length)
    (plenty : parameters.length ≤ (right.operands caller.stack).length)
    {budget : Nat} {args returns : Option Int}
    (core : (⟨budget, .body (.closure scope code parameters) frame args returns, left⟩ :
      Moment).RunsCore shared) :
    Concur shared pairing left right frame caller parameters.length
      (runClosure (.within budget) scope code parameters frame left)
      (runClosure (.within budget) other code parameters caller right) := by
  have entered := enterClosure_apply scope parameters frame left
  have begun := enterClosure_apply other parameters caller right
  rw [← level, agrees.callLimit.2, ← agrees.callLimit.1] at begun
  rw [runClosure, runClosure]
  by_cases deep : (left.callLimit : Int) < frame.depth + 1
  · rw [if_pos deep] at entered begun
    rw [Run.bind_of_error entered, Run.bind_of_error begun]
    exact .fails (.refl agrees) rfl
  · rw [if_neg deep, if_neg (Nat.not_lt.mpr enough)] at entered
    rw [if_neg deep, if_neg (Nat.not_lt.mpr plenty)] at begun
    rw [Run.bind_of_ok entered, Run.bind_of_ok begun]
    have relates := @Bond.callers_relates _ _ _ _ frame caller parameters.length agrees oneToOne
    have opened := relates.matched_opening
      (.ofArguments (.some paired) (List.forall₂_reverse_iff.mpr arguments) parameters)
      (Bond.twins_level level)
    rw [State.without, State.without, State.nextFrame_setOperands, State.nextFrame_setOperands,
      ← State.withArguments_eq, ← State.withArguments_eq, ← level] at opened
    cases opened with
    | ends within relates inner =>
        refine concur_bind within.pairing (relates.matched_run fun smaller same => ?_)
          fun within further relates _ => ?_
        · subst same
          exact Moment.matched _ (core.part (.closure entered)) relates
            (.steps (shares.mono within.pairing) inner)
        · refine concur_bind within (relates.matched_soleResult (inner.mono further).stack _)
            fun within _ relates alike => ?_
          exact concur_push made there within relates alike

theorem concur_promise {id other : PromiseId}
    (agrees : left.Alike shared pairing right) (oneToOne : pairing.OneToOne)
    (paired : pairing.promises id other) (level : frame.depth = caller.depth)
    {budget : Nat} {args returns : Option Int}
    (core : (⟨budget, .body (.promise id) frame args returns, left⟩ : Moment).RunsCore shared) :
    Concur shared pairing left right frame caller 0 (runPromise (.within budget) id frame left)
      (runPromise (.within budget) other caller right) := by
  have relates := @Bond.callers_relates _ _ _ _ frame caller 0 agrees oneToOne
  rw [State.without, State.without, List.drop_zero, List.drop_zero, State.setOperands_operands,
    State.setOperands_operands] at relates
  obtain ⟨_, _, same⟩ := agrees.promises paired
  rcases same.settled with ⟨value, result, resolved, settled, alike⟩ | ⟨pending, unsettled⟩
  · rw [runPromise_of_value resolved, runPromise_of_value settled]
    exact concur_push made there (.refl pairing) relates alike
  · rw [runPromise_of_pending pending, runPromise_of_pending unsettled]
    refine concur_bind (.refl pairing)
      (relates.matched_compute same.scope same.body (Bond.twins_level level)
        fun entered _ within relates inner => relates.matched_run fun smaller enough => ?_)
      fun within further relates alike => ?_
    · subst enough
      exact Moment.matched _ (core.part (.promise pending entered)) relates
        (.steps (same.code.mono within.pairing) inner)
    · have stored := relates.resolve (further.pairing.promises paired) alike
      exact concur_push made there within (stored.mark _ _ (Nat.le_refl _) (Nat.le_refl _)) alike

end Concur

section Concur

variable {shared : Shared} {pairing : Pairing} {left right : State} {frame caller : Frame} {count : Nat}
  {target other : Callable} {args returns : Option Int} {budget : Nat}

theorem Concur.settles {machine answer : Machine} {signature : Signature}
    (concur : Concur shared pairing left right frame caller signature.args.toNat
      (target.runBody machine frame args returns left) (other.runBody answer caller args returns right))
    (single : signature.returns = 1) (natural : 0 ≤ signature.args)
    (declared : target.signature? = some signature)
    (enough : signature.args ≤ ((left.operands frame.stack).length : Int))
    (also : other.signature? = some signature)
    (plenty : signature.args ≤ ((right.operands caller.stack).length : Int)) :
    (∀ final, target.runBody machine frame args returns left = .ok () final →
      target.Settles frame left final) ∧
    ∀ reached, other.runBody answer caller args returns right = .ok () reached →
      other.Settles caller right reached := by
  constructor
  · intro final ran again same
    cases declared.symm.trans same
    rw [ran] at concur
    generalize other.runBody answer caller args returns right = outcome at concur
    cases concur with
    | returns _ _ onLeft _ =>
        rw [onLeft, List.length_cons, List.length_drop, single]
        omega
  · intro reached ran again same
    cases also.symm.trans same
    rw [ran] at concur
    generalize target.runBody machine frame args returns left = outcome at concur
    cases concur with
    | returns _ _ _ onRight =>
        rw [onRight, List.length_cons, List.length_drop, single]
        omega

theorem concur_body (agrees : left.Alike shared pairing right) (oneToOne : pairing.OneToOne)
    (captured : target.Alike shared pairing other)
    (bodied : (∃ scope code parameters, target = .closure scope code parameters) ∨ ∃ id, target = .promise id)
    (arguments : List.Forall₂ (Value.Alike shared pairing)
      ((left.operands frame.stack).take target.argumentCount)
      ((right.operands caller.stack).take target.argumentCount))
    (enough : target.argumentCount ≤ (left.operands frame.stack).length)
    (plenty : target.argumentCount ≤ (right.operands caller.stack).length)
    (level : frame.depth = caller.depth) (made : left.HasStack frame.stack)
    (there : right.HasStack caller.stack)
    (core : (⟨budget, .body target frame args returns, left⟩ : Moment).RunsCore shared) :
    Concur shared pairing left right frame caller target.argumentCount
      (target.runBody (.within budget) frame args returns left)
      (other.runBody (.within budget) caller args returns right) := by
  cases captured with
  | closure paired shares =>
      exact concur_closure made there agrees oneToOne paired shares level arguments enough plenty core
  | promise paired => exact concur_promise made there agrees oneToOne paired level core
  | _ => rcases bodied with ⟨_, _, _, impossible⟩ | ⟨_, impossible⟩ <;> cases impossible

/-- Two states agree on a closure or a promise, on its arguments and on what they lead to, as far as its code looks
names up. Then calls on equally deep frames, in any scopes and with anything below the arguments, both end with values
that are alike or both fail with errors of one kind, and resolve the same promises. -/
theorem call_depends_only_on_captures (args returns : Option Int)
    (agrees : left.Alike shared pairing right) (oneToOne : pairing.OneToOne)
    (captured : target.Alike shared pairing other)
    (bodied : (∃ scope code parameters, target = .closure scope code parameters) ∨ ∃ id, target = .promise id)
    (arguments : List.Forall₂ (Value.Alike shared pairing)
      ((left.operands frame.stack).take target.argumentCount)
      ((right.operands caller.stack).take target.argumentCount))
    (level : frame.depth = caller.depth) (made : left.HasStack frame.stack)
    (there : right.HasStack caller.stack)
    (core : (⟨callBudget left.callLimit frame.depth, .call target frame args returns, left⟩ :
      Moment).RunsCore shared) :
    Concur shared pairing left right frame caller target.argumentCount
      (Callable.call target frame args returns left) (Callable.call other caller args returns right) := by
  rw [Callable.call_apply, Callable.call_apply, agrees.callLimit.2, ← agrees.callLimit.1, ← level,
    Activity.run, Activity.run, Callable.callWithin_eq]
  obtain ⟨signature, declared, single, natural⟩ : ∃ signature, target.signature? = some signature ∧
      signature.returns = 1 ∧ 0 ≤ signature.args := by
    rcases bodied with ⟨_, _, parameters, rfl⟩ | ⟨_, rfl⟩
    · exact ⟨_, rfl, rfl, Int.natCast_nonneg parameters.length⟩
    · exact ⟨_, rfl, rfl, Int.le_refl 0⟩
  have also : other.signature? = some signature := captured.signature? ▸ declared
  have counted : target.argumentCount = signature.args.toNat := by
    rw [Callable.argumentCount, declared]
    rfl
  have both := arguments.length_eq
  rw [List.length_take, List.length_take, counted] at both
  by_cases accepted : signature.Accepts args returns
  · by_cases short : ((left.operands frame.stack).length : Int) < signature.args
    · rw [Callable.callOnce_of_short _ declared accepted short,
        Callable.callOnce_of_short _ also accepted (by omega)]
      exact .fails (.refl agrees) rfl
    · have admitted := Callable.admits_of_accepts declared accepted (Int.not_lt.mp short)
      have concur := concur_body agrees oneToOne captured bodied arguments (by omega) (by omega) level made
        there (core.part (.body admitted))
      have present : signature.args ≤ ((right.operands caller.stack).length : Int) := by omega
      obtain ⟨settles, settlesToo⟩ :=
        (counted ▸ concur).settles single natural declared (Int.not_lt.mp short) also present
      rw [Callable.callOnce_eq_body admitted settles,
        Callable.callOnce_eq_body (Callable.admits_of_accepts also accepted present) settlesToo]
      exact concur
  · obtain ⟨failure, kind, failed⟩ := Callable.callOnce_of_not_accepts _ declared accepted
    obtain ⟨refusal, sort, refused⟩ := Callable.callOnce_of_not_accepts _ also accepted
    rw [failed, refused]
    exact .fails (.refl agrees) (kind.trans sort.symm)

end Concur

def constantSeven : Value :=
  ⟨⟨0⟩, .int, .int 7, 5⟩

def promisingSeven (promises : Array Promise) (id : PromiseId) (others : Table String Binding)
    (operands : Operands) : State :=
  { State.empty 9 with
    scopes := #[⟨("seven", .callable (.promise id)) :: others, none⟩, ⟨others, some ⟨0⟩⟩]
    operandStacks := #[operands]
    promises := promises
    nextIdentity := 6 }

def readingSeven : Callable :=
  .closure ⟨0⟩ [.get "seven"] ["ignored"]

def sharingSeven : Shared :=
  ⟨fun name => name = "seven", fun domain => domain = ⟨0⟩, fun identity => identity = 0, fun _ _ => False, 9⟩

def pairingSeven : Pairing :=
  ⟨fun scope other => scope = ⟨0⟩ ∧ other = ⟨0⟩, fun id other => id = ⟨0⟩ ∧ other = ⟨1⟩⟩

def noisyCaller : State :=
  promisingSeven #[.pending ⟨0⟩ [.push constantSeven]] ⟨0⟩ [("noise", .value constantSeven)]
    [constantSeven, constantSeven]

def quietCaller : State :=
  promisingSeven #[.pending ⟨1⟩ [.get "noise"], .pending ⟨0⟩ [.push constantSeven]] ⟨1⟩ [] [constantSeven]

theorem constantSeven_alike : constantSeven.Alike sharingSeven pairingSeven constantSeven :=
  .made rfl (.atom rfl) fun _ _ => Iff.rfl

theorem callers_alike : noisyCaller.Alike sharingSeven pairingSeven quietCaller where
  scopes paired := by
    obtain ⟨rfl, rfl⟩ := paired
    refine ⟨⟨by decide, by rintro _ ⟨⟩⟩, ⟨by decide, by rintro _ ⟨⟩⟩, .none, ?_⟩
    rintro _ rfl
    exact .some (.callable (.promise ⟨rfl, rfl⟩))
  promises paired := by
    obtain ⟨rfl, rfl⟩ := paired
    exact ⟨by decide, by decide, .some ⟨rfl, rfl⟩, rfl, .push constantSeven_alike .nil, .none⟩
  domains known := by
    subst known
    exact ⟨rfl, rfl⟩
  nulls meant := by
    subst meant
    exact ⟨by decide, by decide⟩
  callLimit := ⟨rfl, rfl⟩

theorem call_depends_only_on_captures_of_seven :
    ∃ final reached,
      Callable.call readingSeven ⟨⟨1⟩, ⟨0⟩, 3⟩ (some 1) (some 1) noisyCaller = .ok () final ∧
      Callable.call readingSeven ⟨⟨1⟩, ⟨0⟩, 3⟩ (some 1) (some 1) quietCaller = .ok () reached ∧
      (∃ number, number.payload = .int 7 ∧ reached.operands ⟨0⟩ = [number]) ∧
      (reached.promise ⟨1⟩).value.isSome ∧ reached.promise ⟨0⟩ = quietCaller.promise ⟨0⟩ := by
  have captured : readingSeven.Alike sharingSeven pairingSeven readingSeven :=
    .closure ⟨rfl, rfl⟩ (.get rfl .nil)
  have arguments : List.Forall₂ (Value.Alike sharingSeven pairingSeven)
      ((noisyCaller.operands ⟨0⟩).take readingSeven.argumentCount)
      ((quietCaller.operands ⟨0⟩).take readingSeven.argumentCount) := .cons constantSeven_alike .nil
  have oneToOne : pairingSeven.OneToOne := by
    rintro _ _ _ _ ⟨rfl, rfl⟩ ⟨rfl, rfl⟩
    exact ⟨fun _ => rfl, fun _ => rfl⟩
  have concur := @call_depends_only_on_captures _ _ noisyCaller quietCaller ⟨⟨1⟩, ⟨0⟩, 3⟩ ⟨⟨1⟩, ⟨0⟩, 3⟩ _ _
    (some 1) (some 1) callers_alike oneToOne captured (.inl ⟨_, _, _, rfl⟩) arguments rfl (by decide) (by decide)
    (fun _ _ known => known.elim)
  obtain ⟨final, ran, resolved, pushed⟩ : ∃ final,
      Callable.call readingSeven ⟨⟨1⟩, ⟨0⟩, 3⟩ (some 1) (some 1) noisyCaller = .ok () final ∧
        (final.promise ⟨0⟩).value.isSome ∧ final.operands ⟨0⟩ = [constantSeven, constantSeven] :=
    ⟨_, rfl, rfl, rfl⟩
  rw [ran] at concur ⊢
  generalize Callable.call readingSeven ⟨⟨1⟩, ⟨0⟩, 3⟩ (some 1) (some 1) quietCaller = outcome at concur ⊢
  cases concur with
  | @returns wider value answer _ reached stays alike onLeft onRight =>
      have apart : ¬ ∃ id, pairingSeven.promises id ⟨0⟩ := by
        rintro ⟨_, _, impossible⟩
        cases impossible
      rw [pushed] at onLeft
      cases onLeft
      refine ⟨final, reached, rfl, rfl, ⟨answer, ?_, onRight⟩, (stays.resolved ⟨rfl, rfl⟩).mp resolved,
        stays.right (by decide) apart⟩
      cases alike with
      | made _ same _ =>
          cases same
          rfl

end LazyStack
