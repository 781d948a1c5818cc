import LazyStack.Proofs.Telling

/-!
The log as an account of a run. It tells of each closure that the run makes and of each promise that gets a value in
it, in the order in which they come about, and of nothing else.
-/

namespace LazyStack

def Event.resolves (id : PromiseId) : Event → Bool
  | .promiseResolved other _ => other = id
  | _ => false

namespace Moment

variable {whole inner first second : Moment}

section News

variable {id : PromiseId} {history : List Moment} {value : Value}

def newsOf (id : PromiseId) (history : List Moment) : List Event :=
  (history.filterMap told).filter (Event.resolves id)

theorem newsOf_append (earlier later : List Moment) :
    newsOf id (earlier ++ later) = newsOf id earlier ++ newsOf id later := by
  rw [newsOf, List.filterMap_append, List.filter_append, newsOf, newsOf]

theorem newsOf_eq_nil (quiet : ∀ moment ∈ history, ¬ moment.Completes id) : newsOf id history = [] := by
  refine List.filter_eq_nil_iff.mpr fun event member resolves => ?_
  obtain ⟨moment, among, told⟩ := List.mem_filterMap.mp member
  cases event with
  | promiseResolved other text =>
      have same : other = id := of_decide_eq_true resolves
      exact quiet moment among (completes_of_told (same ▸ told))
  | _ => cases resolves

theorem Computes.news {moment : Moment} {middle : State} (computes : moment.Computes id value middle) :
    newsOf id [moment] = [.promiseResolved id (moment.after.valueText value)] := by
  rw [newsOf, List.filterMap_cons_some computes.tells.1, List.filterMap_nil]
  exact List.filter_cons_of_pos (decide_eq_true rfl)

theorem History.quiet (lists : whole.History history)
    (quiet : ∀ moment, whole.Reaches moment → ¬ moment.Completes id) : newsOf id history = [] :=
  newsOf_eq_nil fun moment member => quiet moment (lists.mem_iff.mp member)

theorem exists_completes (pending : (whole.state.promise id).value = none)
    (stored : (whole.after.promise id).value = some value) :
    ∃ moment, whole.Reaches moment ∧ moment.Completes id := by
  refine Classical.byContradiction fun nowhere => ?_
  have same := whole.leads.keeps_value fun moment reached completes => nowhere ⟨moment, reached, completes⟩
  rw [pending, stored] at same
  cases same

/-- No body of a promise that completes has another one that completes within it. -/
def Unnested (id : PromiseId) (whole : Moment) : Prop :=
  ∀ outer, whole.Reaches outer → outer.Completes id → Innermost id outer

theorem Unnested.part (unnested : whole.Unnested id) (starts : whole.Starts inner) : inner.Unnested id :=
  fun outer reached => unnested outer (.inside starts reached)

theorem stored_of_part (starts : whole.Starts inner) (failing : ¬ whole.Completes id)
    (stored : (whole.after.promise id).value = some value) {moment : Moment} (reached : inner.Reaches moment)
    (completes : moment.Completes id) :
    (inner.state.promise id).value = none ∧ (inner.after.promise id).value = some value := by
  constructor
  · refine Option.not_isSome_iff_eq_none.mp fun present => ?_
    exact quiet_of_present present reached completes
  · obtain ⟨other, held⟩ := Option.isSome_iff_exists.mp (reached.leads_from.keeps_present completes.present)
    rw [held, ← starts.keeps_value failing held, stored]

theorem Continues.not_completes (continues : whole.Continues first second) : ¬ whole.Completes id := by
  rintro ⟨_, _, computes⟩
  cases computes with
  | pending => cases continues

theorem History.news (lists : whole.History history) (unnested : whole.Unnested id)
    (pending : (whole.state.promise id).value = none) (stored : (whole.after.promise id).value = some value) :
    ∃ moment ∈ history, (∃ middle, moment.Computes id value middle) ∧
      newsOf id history = [.promiseResolved id (moment.after.valueText value)] := by
  obtain ⟨moment, reached, completes⟩ := exists_completes pending stored
  -- A moment that completes the promise itself has nothing that completes it inside.
  have own {inner : List Moment} {whole : Moment} (completes : whole.Completes id)
      (stored : (whole.after.promise id).value = some value) (quiet : newsOf id inner = []) :
      ∃ moment ∈ inner ++ [whole], (∃ middle, moment.Computes id value middle) ∧
        newsOf id (inner ++ [whole]) = [.promiseResolved id (moment.after.valueText value)] := by
    obtain ⟨other, middle, computes⟩ := completes
    cases computes.stored.symm.trans stored
    exact ⟨whole, by simp, ⟨middle, computes⟩, by rw [newsOf_append, quiet, computes.news, List.nil_append]⟩
  induction lists with
  | @alone whole none =>
      cases reached with
      | here => exact @own [] _ completes stored rfl
      | inside starts _ => exact absurd starts (none _)
  | @single whole part inner starts only lists ih =>
      by_cases itself : whole.Completes id
      · exact own itself stored (lists.quiet fun _ deeper => unnested _ (.here _) itself _ _ starts deeper)
      · cases reached with
        | here => exact absurd completes itself
        | inside begins deeper =>
            cases only _ begins
            obtain ⟨before, after⟩ := stored_of_part starts itself stored deeper completes
            obtain ⟨found, member, computes, news⟩ := ih (unnested.part starts) before after deeper
            refine ⟨found, List.mem_append_left _ member, computes, ?_⟩
            rw [newsOf_append, news, newsOf_eq_nil (by simpa using itself), List.append_nil]
  | @pair whole first second earlier later continues listsFirst listsSecond ihFirst ihSecond =>
      have itself : ¬ whole.Completes id := continues.not_completes
      have alone : newsOf id [whole] = [] := newsOf_eq_nil (by simpa using itself)
      cases reached with
      | here => exact absurd completes itself
      | inside begins deeper =>
          rcases continues.only begins with rfl | rfl
          · obtain ⟨before, after⟩ := stored_of_part begins itself stored deeper completes
            have quiet : newsOf id later = [] := listsSecond.quiet fun _ further =>
              quiet_of_present (by rw [continues.meets, after]; rfl) further
            obtain ⟨found, member, computes, news⟩ := ihFirst (unnested.part begins) before after deeper
            refine ⟨found, by simp [member], computes, ?_⟩
            rw [newsOf_append, newsOf_append, news, quiet, alone, List.append_nil, List.append_nil]
          · obtain ⟨before, after⟩ := stored_of_part begins itself stored deeper completes
            have quiet : newsOf id earlier = [] := listsFirst.quiet fun other further again => by
              have present := further.leads_from.keeps_present again.present
              rw [← continues.meets, before] at present
              cases present
            obtain ⟨found, member, computes, news⟩ := ihSecond (unnested.part begins) before after deeper
            refine ⟨found, by simp [member], computes, ?_⟩
            rw [newsOf_append, newsOf_append, news, quiet, alone, List.append_nil, List.nil_append]

end News

end Moment

theorem Environment.after_execute (environment : Environment) (code : List Step) (state : State) :
    ∃ whole, (Operation.execute environment code).Begins state whole ∧
      whole.state.log = state.log.push (.executing code.length) ∧ whole.state.promises = state.promises ∧
      whole.state.domains = state.domains ∧ (environment.execute code).after state = whole.after := by
  let frame : Frame := ⟨environment.globals, ⟨state.operandStacks.size⟩, 0⟩
  let start : State :=
    { state with operandStacks := state.operandStacks.push [] }.record (.executing code.length)
  let whole : Moment := ⟨callBudget start.callLimit frame.depth, .steps frame code, start⟩
  refine ⟨whole, .execute, rfl, rfl, rfl, ?_⟩
  have opened : (environment.execute code).after state =
      (runCode frame code >>= fun _ => do return (← get).stackValues frame.stack : Run (List Value)).after start := rfl
  have ran : runCode frame code start = whole.activity.run whole.budget whole.state := runCode_apply frame code start
  rw [opened, Run.after_bind, ran, Moment.after, Run.after]
  cases whole.activity.run whole.budget whole.state <;> rfl

/-- The execution of code logs the number of its steps and then, in the order in which it happens, each closure that
`closure` makes and each promise that gets a value, with the text of what is stored. A promise is told of once, unless
one body that completes it lies within another. -/
theorem log_accounts_for_run (environment : Environment) (code : List Step) (state : State)
    (registered : ∀ budget domain frame args returns reached,
      (Operation.execute environment code).Reaches state
        ⟨budget, .body (.makeClosure domain) frame args returns, reached⟩ →
      ((state.domain domain).names.get? .callable).isSome) :
    ∃ whole history, (Operation.execute environment code).Begins state whole ∧ whole.History history ∧
      ((environment.execute code).after state).log.toList =
        state.log.toList ++ .executing code.length :: history.filterMap Moment.told ∧
      (∀ budget domain frame args returns reached final,
        ⟨budget, .body (.makeClosure domain) frame args returns, reached⟩ ∈ history →
        runMakeClosure domain frame reached = .ok () final →
        ∃ body parameters identity rest, final.operands frame.stack =
            ⟨domain, .callable, .callable (.closure frame.scope body parameters), identity⟩ :: rest ∧
          Moment.told ⟨budget, .body (.makeClosure domain) frame args returns, reached⟩ =
            some (.closureCreated parameters)) ∧
      ∀ id,
        (whole.Unnested id → (state.promise id).value = none →
          ∀ value, (((environment.execute code).after state).promise id).value = some value →
          ∃ moment ∈ history, (∃ middle, moment.Computes id value middle) ∧
            Moment.newsOf id history = [.promiseResolved id (moment.after.valueText value)]) ∧
        ((state.promise id).value.isSome ∨
            (((environment.execute code).after state).promise id).value = none →
          Moment.newsOf id history = []) := by
  obtain ⟨whole, begins, logged, promises, domains, ends⟩ := environment.after_execute code state
  obtain ⟨history, lists⟩ := whole.exists_history
  have same (id : PromiseId) : whole.state.promise id = state.promise id := by
    rw [State.promise, promises, State.promise]
  have registers : whole.RegistersCallables := by
    intro budget domain frame args returns reached comesUp
    have grown := State.Grows.of_reaches comesUp
    rw [State.domain, grown.domains, domains]
    exact registered _ _ _ _ _ _ ⟨whole, begins, comesUp⟩
  refine ⟨whole, history, begins, lists, ?_, ?_, fun id => ⟨?_, ?_⟩⟩
  · rw [ends, lists.log registers, logged, Array.toList_push, List.append_assoc, List.singleton_append]
  · intro budget domain frame args returns reached final _ ran
    obtain ⟨body, parameters, identity, rest, pushed, same, _⟩ := Moment.told_makeClosure budget args returns ran
    exact ⟨body, parameters, identity, rest, pushed, same⟩
  · intro unnested pending value stored
    rw [ends] at stored
    exact lists.news unnested (same id ▸ pending) stored
  · intro settled
    refine lists.quiet fun moment reached completes => ?_
    rcases settled with present | missing
    · exact Moment.quiet_of_present (same id ▸ present) reached completes
    · have stored := reached.leads_from.keeps_present completes.present
      rw [← ends, missing] at stored
      cases stored

def foreignMaker : State :=
  let state := State.through [.addEnvironment none, .addDomain []] (.empty 125)
  state.bind ⟨0⟩ "make" (.value ⟨⟨0⟩, .callable, .callable (.makeClosure ⟨1⟩), state.nextIdentity⟩)

def foreignCode : List Step :=
  [.push ⟨⟨1⟩, .null, .null true, 1⟩, .push ⟨⟨0⟩, .code, .code [], 9⟩, .call "make" (some 2) (some 1)]

/-- In an environment whose domain registers callables, a closure is told of that could not be made. -/
theorem failed_closure_is_told :
    ((foreignMaker.domain ⟨0⟩).names.get? .callable).isSome ∧
      ∃ final, (Environment.execute ⟨⟨0⟩, ⟨0⟩⟩ foreignCode) foreignMaker = .error (.unregistered .callable) final ∧
        final.operands ⟨0⟩ = [] ∧
        final.log.toList = foreignMaker.log.toList ++ [.executing 3, .closureCreated []] := by
  refine ⟨by decide, _, rfl, rfl, ?_⟩
  rfl

namespace Moment

variable {budget later : Nat} {frame caller : Frame} {target : Callable} {args returns : Option Int}
  {state reached : State}

theorem body_of_call {name : String} {wanted given : Option Int} {callee : Callable}
    (bound : state.lookup? frame.scope name = some (.callable callee))
    (alone : ∀ {args returns} part, ¬ Starts ⟨budget, .body callee frame args returns, state⟩ part)
    (comesUp : Reaches ⟨budget, .step frame (.call name wanted given), state⟩
      ⟨later, .body target caller args returns, reached⟩) : target = callee := by
  cases comesUp with
  | inside starts deeper =>
      cases starts with
      | named found resolved =>
          cases found.symm.trans bound
          cases resolved
          cases deeper with
          | inside starts deeper =>
              cases starts with
              | body admitted =>
                  cases deeper with
                  | here => rfl
                  | inside starts _ => exact absurd starts (alone _)

theorem body_of_identityCode (bound : state.lookup? frame.scope closureName = some (.callable (.makeClosure ⟨0⟩)))
    (comesUp : Reaches ⟨budget, .steps frame identityCode, state⟩
      ⟨later, .body target caller args returns, reached⟩) : target = .makeClosure ⟨0⟩ := by
  have called := ((comesUp.of_push (by simp) (by simp)).of_push (by simp) (by simp)).of_single (by simp)
  refine body_of_call ?_ ?_ called
  · have same (reached : State) (values : Operands) :
        (reached.setOperands frame.stack values).lookup? frame.scope closureName =
          reached.lookup? frame.scope closureName := by
      refine State.lookup?_of_scopes ?_ _ _
      rfl
    rw [same, same, bound]
  · rintro _ _ _ ⟨⟩

end Moment

def identityPromised : State :=
  { oneFrame.bind ⟨0⟩ "p" (.callable (.promise ⟨0⟩)) with promises := #[.pending ⟨0⟩ identityCode] }

def gettingPromise (budget : Nat) : Moment :=
  ⟨budget, .steps ⟨⟨0⟩, ⟨1⟩, 0⟩ [.get "p"],
    { identityPromised with operandStacks := identityPromised.operandStacks.push [] }.record (.executing 1)⟩

theorem body_of_gettingPromise {budget later : Nat} {caller : Frame} {target : Callable}
    {args returns : Option Int} {reached : State}
    (comesUp : (gettingPromise budget).Reaches ⟨later, .body target caller args returns, reached⟩) :
    (target = .promise ⟨0⟩ ∧ later = budget ∧ caller = ⟨⟨0⟩, ⟨1⟩, 0⟩ ∧
        reached = (gettingPromise budget).state) ∨
      target = .makeClosure ⟨0⟩ := by
  have got := comesUp.of_single (by simp)
  cases got with
  | inside starts deeper =>
      cases starts with
      | got found =>
          cases found
          cases deeper with
          | inside starts deeper =>
              cases starts with
              | body admitted =>
                  cases deeper with
                  | here => exact .inl ⟨rfl, rfl, rfl, rfl⟩
                  | inside starts deeper =>
                      cases starts with
                      | promise pending entered =>
                          obtain ⟨-, rfl, rfl⟩ := enterPromise_eq_ok entered
                          exact .inr (Moment.body_of_identityCode rfl deeper)

theorem log_accounts_for_promised_identity :
    (∀ budget domain frame args returns reached,
      (Operation.execute ⟨⟨0⟩, ⟨0⟩⟩ [.get "p"]).Reaches identityPromised
        ⟨budget, .body (.makeClosure domain) frame args returns, reached⟩ →
      ((identityPromised.domain domain).names.get? .callable).isSome) ∧
    ∃ whole history moment value, (Operation.execute ⟨⟨0⟩, ⟨0⟩⟩ [.get "p"]).Begins identityPromised whole ∧
      whole.History history ∧ whole.Unnested ⟨0⟩ ∧ moment ∈ history ∧
      ((Environment.execute ⟨⟨0⟩, ⟨0⟩⟩ [.get "p"]).after identityPromised).log.toList =
        identityPromised.log.toList ++ .executing 1 :: history.filterMap Moment.told ∧
      Moment.newsOf ⟨0⟩ history = [.promiseResolved ⟨0⟩ (moment.after.valueText value)] := by
  have registered : ∀ budget domain frame args returns reached,
      (Operation.execute ⟨⟨0⟩, ⟨0⟩⟩ [.get "p"]).Reaches identityPromised
        ⟨budget, .body (.makeClosure domain) frame args returns, reached⟩ →
      ((identityPromised.domain domain).names.get? .callable).isSome := by
    rintro budget domain frame args returns reached ⟨_, ⟨⟩, comesUp⟩
    rcases body_of_gettingPromise comesUp with ⟨impossible, _⟩ | same
    · cases impossible
    · cases same
      decide
  obtain ⟨whole, history, begins, lists, log, _, news⟩ :=
    log_accounts_for_run ⟨⟨0⟩, ⟨0⟩⟩ [.get "p"] identityPromised registered
  have unnested : whole.Unnested ⟨0⟩ := by
    rintro outer comesUp ⟨_, _, completes⟩ part inner starts deeper ⟨_, _, again⟩
    cases begins
    cases completes with
    | pending =>
        rcases body_of_gettingPromise comesUp with ⟨_, rfl, rfl, rfl⟩ | impossible
        · cases starts with
          | promise pending entered =>
              obtain ⟨-, rfl, rfl⟩ := enterPromise_eq_ok entered
              cases again with
              | pending => cases Moment.body_of_identityCode rfl deeper
        · cases impossible
  obtain ⟨value, stored⟩ : ∃ value,
      (((Environment.execute ⟨⟨0⟩, ⟨0⟩⟩ [.get "p"]).after identityPromised).promise ⟨0⟩).value = some value :=
    ⟨_, rfl⟩
  obtain ⟨moment, member, _, once⟩ := (news ⟨0⟩).1 unnested rfl value stored
  exact ⟨registered, whole, history, moment, value, begins, lists, unnested, member, log, once⟩

end LazyStack
