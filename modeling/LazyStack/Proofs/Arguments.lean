import LazyStack.Proofs.Lexical
import LazyStack.Proofs.ParameterList
import LazyStack.Proofs.Simulation

/-!
Arguments under their parameters. The scope of a call is new, and binds one parameter after the other, so a name
finds the argument of the last parameter of that name. All other names are found as they are from the scope that the
closure was made in. Lambdas name each parameter once, but `closure` takes any list of symbols.
-/

namespace LazyStack

section Bindings

variable {names : List String} {values : List Value} {name : String}

theorem get?_foldl_put_other {entries : List (String × Value)} {bindings : Table String Binding}
    (absent : name ∉ entries.map Prod.fst) :
    Table.get? name (entries.foldl (fun bindings entry => bindings.put entry.1 (.value entry.2)) bindings) =
      bindings.get? name := by
  induction entries generalizing bindings with
  | nil => rfl
  | cons entry rest ih =>
      rw [List.map_cons, List.mem_cons, not_or] at absent
      rw [List.foldl_cons, ih absent.2]
      exact Table.get?_put_of_ne (Ne.symm absent.1) _ _

theorem not_mem_keys_zip (absent : name ∉ names) : name ∉ (names.zip values).map Prod.fst := by
  intro member
  obtain ⟨entry, paired, rfl⟩ := List.mem_map.mp member
  exact absent (List.of_mem_zip paired).1

theorem get?_foldl_put_last {index : Nat} {value : Value} {bindings : Table String Binding}
    (named : names[index]? = some name) (given : values[index]? = some value)
    (last : name ∉ names.drop (index + 1)) :
    Table.get? name ((names.zip values).foldl
      (fun bindings entry => bindings.put entry.1 (.value entry.2)) bindings) = some (.value value) := by
  induction names generalizing values index bindings with
  | nil => cases named
  | cons first names ih =>
      cases values with
      | nil => cases given
      | cons argument values =>
          rw [List.zip_cons_cons, List.foldl_cons]
          cases index with
          | zero =>
              cases named
              cases given
              have absent : name ∉ names := last
              rw [get?_foldl_put_other (not_mem_keys_zip absent)]
              exact Table.get?_put_self _ _ _
          | succ index => exact ih named given last

end Bindings

namespace State

variable {before start : State}

theorem found_of_kept (older : ∀ scope, before.ParentOlder scope)
    (kept : ∀ {scope : ScopeId}, scope.index < before.scopes.size → start.scope scope = before.scope scope)
    (name : String) {links more : Nat} {scope : ScopeId} (present : scope.index < before.scopes.size)
    (enough : scope.index ≤ links) (plenty : scope.index ≤ more) :
    (((start.chainUpTo links scope).find? (start.binds name)).bind fun owner =>
        (start.scope owner).bindings.get? name) =
      ((before.chainUpTo more scope).find? (before.binds name)).bind fun owner =>
        (before.scope owner).bindings.get? name := by
  induction links generalizing scope more with
  | zero =>
      have outermost : (before.scope scope).parent = none := by
        cases around : (before.scope scope).parent with
        | none => rfl
        | some parent =>
            have younger := older scope parent around
            omega
      rw [chainUpTo_outermost outermost, chainUpTo_outermost ((kept present).symm ▸ outermost), found_of_cons,
        found_of_cons, kept present]
      rfl
  | succ links ih =>
      cases around : (before.scope scope).parent with
      | none =>
          rw [chainUpTo_outermost around, chainUpTo_outermost ((kept present).symm ▸ around), found_of_cons,
            found_of_cons, kept present]
          rfl
      | some parent =>
          have younger := older scope parent around
          cases more with
          | zero => omega
          | succ more =>
              have outside : parent.index < before.scopes.size := Nat.lt_trans younger present
              rw [chainUpTo, chainUpTo, kept present, around, found_of_cons, found_of_cons, kept present]
              exact congrArg _ (ih outside (by omega) (by omega))

theorem Opens.lookup {opened : Scope} {inner : Frame} (opens : before.Opens opened inner start)
    (older : ∀ scope, before.ParentOlder scope) {scope : ScopeId} (inside : opened.parent = some scope)
    (present : scope.index < before.scopes.size) (name : String) :
    start.lookup? inner.scope name = (opened.bindings.get? name).or (before.lookup? scope name) := by
  obtain ⟨links, counted⟩ := Nat.exists_eq_add_of_lt present
  have number : inner.scope.index = (scope.index + links) + 1 := by
    rw [opens.scope]
    exact counted
  rw [lookup?, owner?, chain, number, chainUpTo, opens.scope_new, inside, found_of_cons, opens.scope_new,
    found_of_kept older opens.scope_old name present (Nat.le_add_right _ _) (Nat.le_refl _)]
  rfl

end State

/-- What the scope of a call finds: under a parameter its argument, that of the last of its name if it is named
again, and under all other names what is found around. -/
structure State.Passes (start : State) (inside : ScopeId) (parameters : List String) (arguments : List Value)
    (around : String → Option Binding) : Prop where
  matched : arguments.length = parameters.length
  last {index : Nat} {name : String} {value : Value} : parameters[index]? = some name →
    arguments[index]? = some value → name ∉ parameters.drop (index + 1) →
    start.lookup? inside name = some (.value value)
  other {name : String} : name ∉ parameters → start.lookup? inside name = around name

theorem State.Passes.every {start : State} {inside : ScopeId} {parameters : List String} {arguments : List Value}
    {around : String → Option Binding} (passes : start.Passes inside parameters arguments around)
    (distinct : parameters.Nodup) {index : Nat} {name : String} {value : Value}
    (named : parameters[index]? = some name) (given : arguments[index]? = some value) :
    start.lookup? inside name = some (.value value) := by
  refine passes.last named given fun again => ?_
  obtain ⟨present, same⟩ := List.getElem?_eq_some_iff.mp named
  rw [← List.take_append_drop (index + 1) parameters, List.nodup_append] at distinct
  have before : name ∈ parameters.take (index + 1) := by
    rw [List.mem_take_iff_getElem]
    exact ⟨index, by omega, same⟩
  exact distinct.2.2 name before name again rfl

theorem enterClosure_passes {scope : ScopeId} {parameters : List String} {frame inner : Frame}
    {state start : State} (entered : enterClosure scope parameters frame state = .ok inner start)
    (older : ∀ scope, state.ParentOlder scope) (present : scope.index < state.scopes.size) :
    ¬ state.Has (.scope inner.scope) ∧ ∃ arguments rest,
      state.operands frame.stack = arguments.reverse ++ rest ∧
      start.Passes inner.scope parameters arguments (state.lookup? scope) := by
  have opens := enterClosure_opens entered
  have finds := opens.lookup older rfl present
  have fresh : ¬ state.Has (.scope inner.scope) := by
    rw [opens.scope]
    exact Nat.lt_irrefl _
  obtain ⟨-, enough, -, -⟩ := enterClosure_eq_ok entered
  refine ⟨fresh, ((state.operands frame.stack).take parameters.length).reverse,
    (state.operands frame.stack).drop parameters.length, ?_, ?_, ?_, ?_⟩
  · rw [List.reverse_reverse, List.take_append_drop]
  · rw [List.length_reverse, List.length_take_of_le enough]
  · intro index name value named given last
    rw [finds, Scope.ofArguments, get?_foldl_put_last named given last]
    rfl
  · intro name absent
    rw [finds, Scope.ofArguments, get?_foldl_put_other (not_mem_keys_zip absent)]
    rfl

namespace Moment

variable {moment : Moment}

theorem Sound.parentOlder (sound : moment.Sound) (scope : ScopeId) : moment.state.ParentOlder scope := by
  obtain ⟨_, _, same, covered⟩ := sound
  exact (same.state.exists_scope covered scope).2

theorem Sound.captured {budget : Nat} {scope : ScopeId} {code : List Step} {parameters : List String}
    {frame : Frame} {args returns : Option Int} {state : State}
    (sound : Moment.Sound ⟨budget, .body (.closure scope code parameters) frame args returns, state⟩) :
    scope.index < state.scopes.size := by
  obtain ⟨_, other, same, _⟩ := sound
  have alike := same.activity
  generalize other.activity = activity at alike
  cases alike with
  | body target _ =>
      cases target with
      | closure paired _ => exact (same.state.has paired).1

end Moment

theorem LambdaForm.listedNames_nodup {form : LambdaForm} {parameters body node : Node} {before after : State}
    (built : form.build parameters body before = .ok node after) (plain : form.null.elements = []) :
    ∃ list, node = .lambda form parameters body list ∧ list.listedNames.Nodup := by
  obtain ⟨names, list, found, same, listed⟩ := build_names built
  refine ⟨list, same, ?_⟩
  rw [listed, Value.listedNames, plain, List.map_nil, List.append_nil]
  exact (names_of_collectNames found).2

theorem runMakeClosure_nodup {domain : DomainId} {frame : Frame} {state made : State} {quoted list : Value}
    {rest : Operands} (operands : state.operands frame.stack = quoted :: list :: rest)
    (ran : runMakeClosure domain frame state = .ok () made) (distinct : list.listedNames.Nodup) :
    ∃ code parameters identity, parameters.Nodup ∧ made.operands frame.stack =
      ⟨domain, .callable, .callable (.closure frame.scope code parameters), identity⟩ :: rest := by
  rcases runMakeClosure_cases domain frame state with
    ⟨_, _, failed, _⟩ | ⟨_, _, _, parameters, same, named, pushes⟩
  · rw [failed] at ran
    cases ran
  · rw [operands] at same
    cases same
    have made : state.HasStack frame.stack := State.hasStack_of_operands (by simp [operands])
    rw [pushes] at ran
    obtain ⟨⟨identity, pushed⟩, -⟩ := pushClosure_eq_ok ran (State.hasStack_setOperands.mpr made)
    rw [State.operands_setOperands_self made] at pushed
    refine ⟨_, parameters, identity, ?_, pushed⟩
    rcases named with rfl | rfl
    · exact .nil
    · exact distinct

namespace Session

/-- Whatever comes up in a session, a call has a new scope, in which each parameter finds the argument of the last
parameter of its name and all other names are found as from where the closure was made. Under distinct parameters, such
as lambdas have, every argument is found. -/
theorem arguments_reach_parameters (raw : Option String) (hosts : List LibraryHost) {deeds : List Deed}
    {deed : Deed} (plain : ∀ deed ∈ deeds, deed.Plain) (fine : deed.Plain) :
    (∀ budget scope code parameters frame args returns state inner start,
      (reached raw hosts deeds).Reaches deed
        ⟨budget, .body (.closure scope code parameters) frame args returns, state⟩ →
      enterClosure scope parameters frame state = .ok inner start →
      ¬ state.Has (.scope inner.scope) ∧ ∃ arguments rest,
        state.operands frame.stack = arguments.reverse ++ rest ∧
        start.Passes inner.scope parameters arguments (state.lookup? scope) ∧
        (parameters.Nodup → ∀ (index : Nat) (name : String) (value : Value), parameters[index]? = some name →
          arguments[index]? = some value → start.lookup? inner.scope name = some (.value value))) ∧
      ∀ (form : LambdaForm) (specified body node : Node) (before after : State),
        form.build specified body before = .ok node after → form.null.elements = [] →
        ∃ list, node = .lambda form specified body list ∧
          ∀ (domain : DomainId) (frame : Frame) (quoted : Value) (rest : Operands) (state made : State),
            state.operands frame.stack = quoted :: list :: rest →
            runMakeClosure domain frame state = .ok () made →
            ∃ code parameters identity, parameters.Nodup ∧ made.operands frame.stack =
              ⟨domain, .callable, .callable (.closure frame.scope code parameters), identity⟩ :: rest := by
  constructor
  · intro budget scope code parameters frame args returns state inner start comesUp entered
    have sound := ((sound_start raw hosts).after plain).reached fine comesUp
    obtain ⟨fresh, arguments, rest, operands, passes⟩ :=
      enterClosure_passes entered sound.parentOlder sound.captured
    exact ⟨fresh, arguments, rest, operands, passes, fun distinct _ _ _ => passes.every distinct⟩
  · intro form specified body node before after built unlisted
    obtain ⟨list, same, distinct⟩ := LambdaForm.listedNames_nodup built unlisted
    exact ⟨list, same, fun domain frame quoted rest state made operands ran =>
      runMakeClosure_nodup operands ran distinct⟩

def pairDeeds (first second : String) : List Deed :=
  [.command ⟨"main", .evaluate (.call "closure" [.value (.list [.plain .symbol (.symbol first),
      .plain .symbol (.symbol second)] none), .raw (.get "x")] 1) ["pair"]⟩,
    .command ⟨"main", .topFrame "top"⟩,
    .command ⟨"main", .push "top" [.plain .int (.int 1), .plain .int (.int 2)]⟩]

def pairCall : Deed :=
  .command ⟨"main", .callValue (.register "pair") "top" (some 2) (some 1)⟩

def PairReady (first second : String) : Prop :=
  let session := reached none [] (pairDeeds first second)
  0 < session.state.callLimit ∧ (session.registers.environments.get? "main").isSome ∧
    (session.registers.values.get? "pair").bind Value.parameters? = some [first, second] ∧
    (session.registers.frames.get? "top").map (fun frame => (frame.depth,
      (session.state.operands frame.stack).map fun value => value.payload.integer)) = some (0, [2, 1])

instance (first second : String) : Decidable (PairReady first second) :=
  inferInstanceAs (Decidable (_ ∧ _ ∧ _ ∧ _))

theorem plain_pairDeeds (first second : String) : ∀ deed ∈ pairDeeds first second, deed.Plain := by
  simp [pairDeeds, Deed.Plain, Command.Plain, ValueSpec.Plain, ValueSpec.AllPlain, NodeSpec.Plain,
    NodeSpec.AllPlain, Payload.atomic]

theorem plain_pairCall : pairCall.Plain := by
  simp [pairCall, Deed.Plain, Command.Plain, ValueSpec.Plain]

theorem pairCall_enters {first second : String} (ready : PairReady first second) :
    ∃ budget scope code frame state inner start one two,
      (reached none [] (pairDeeds first second)).Reaches pairCall
        ⟨budget, .body (.closure scope code [first, second]) frame (some 2) (some 1), state⟩ ∧
      enterClosure scope [first, second] frame state = .ok inner start ∧
      state.operands frame.stack = [two, one] ∧ one.payload.integer = 1 ∧ two.payload.integer = 2 := by
  rw [PairReady] at ready
  generalize (reached none [] (pairDeeds first second)) = session at ready ⊢
  obtain ⟨limit, opened, kept, framed⟩ := ready
  obtain ⟨environment, opened⟩ := Option.isSome_iff_exists.mp opened
  obtain ⟨value, stored, named⟩ := Option.bind_eq_some_iff.mp kept
  obtain ⟨frame, found, shape⟩ := Option.map_eq_some_iff.mp framed
  obtain ⟨depth, integers⟩ := Prod.mk.inj shape
  obtain ⟨domain, scope, code, identity, rfl⟩ := Value.closure_of_parameters? named
  obtain ⟨two, _, operands, isTwo, others⟩ := List.map_eq_cons_iff.mp integers
  obtain ⟨one, _, rfl, isOne, empty⟩ := List.map_eq_cons_iff.mp others
  cases List.map_eq_nil_iff.mp empty
  have admitted : (Callable.closure scope code [first, second]).Admits frame (some 2) (some 1)
      session.state := by
    rintro signature ⟨⟩
    refine ⟨by simp [Signature.Accepts], ?_⟩
    rw [operands]
    exact Int.le_refl 2
  have asks : session.Asks pairCall (.call (.closure scope code [first, second]) frame (some 2) (some 1))
      session.state := by
    have built : (ValueSpec.register "pair").build session.registers environment.globals environment.domain
        session.state = .ok ⟨domain, .callable, .callable (.closure scope code [first, second]), identity⟩
          session.state := by
      rw [ValueSpec.build, Run.fetch, stored]
      rfl
    exact .callValue opened found built rfl
  have enters := enterClosure_apply scope [first, second] frame session.state
  rw [depth, if_neg (by omega), operands, if_neg (by simp)] at enters
  exact ⟨_, scope, code, frame, session.state, _, _, one, two,
    ⟨_, _, asks, _, .call, .inside (.body admitted) (.here _)⟩, enters, operands, isOne, isTwo⟩

theorem pair_of_reverse {one two : Value} {arguments rest : List Value} (matched : arguments.length = 2)
    (operands : [two, one] = arguments.reverse ++ rest) : arguments = [one, two] := by
  obtain ⟨first, second, rfl⟩ := List.length_eq_two.mp matched
  cases operands
  rfl

/-- Under a repeated name the first argument is not found: the second is. -/
theorem repeated_parameter_hides_argument :
    ∃ budget scope code frame state inner start one two,
      (reached none [] (pairDeeds "x" "x")).Reaches pairCall
        ⟨budget, .body (.closure scope code ["x", "x"]) frame (some 2) (some 1), state⟩ ∧
      enterClosure scope ["x", "x"] frame state = .ok inner start ∧
      state.operands frame.stack = [two, one] ∧ one ≠ two ∧
      start.lookup? inner.scope "x" = some (.value two) := by
  have ready : PairReady "x" "x" := by decide +kernel
  obtain ⟨budget, scope, code, frame, state, inner, start, one, two, comesUp, entered, operands, isOne, isTwo⟩ :=
    pairCall_enters ready
  have sound := ((sound_start none []).after (plain_pairDeeds "x" "x")).reached plain_pairCall comesUp
  obtain ⟨-, arguments, rest, same, passes⟩ := enterClosure_passes entered sound.parentOlder sound.captured
  cases pair_of_reverse passes.matched (operands.symm.trans same)
  have distinct : one ≠ two := by
    rintro rfl
    rw [isOne] at isTwo
    exact absurd isTwo (by decide)
  have hidden : start.lookup? inner.scope "x" = some (.value two) :=
    @passes.last 1 "x" two rfl rfl (by simp)
  exact ⟨budget, scope, code, frame, state, inner, start, one, two, comesUp, entered, operands, distinct, hidden⟩

theorem distinct_parameters_find_arguments :
    (∀ deed ∈ pairDeeds "x" "y", deed.Plain) ∧ pairCall.Plain ∧
      ∃ budget scope code frame state inner start one two,
        (reached none [] (pairDeeds "x" "y")).Reaches pairCall
          ⟨budget, .body (.closure scope code ["x", "y"]) frame (some 2) (some 1), state⟩ ∧
        enterClosure scope ["x", "y"] frame state = .ok inner start ∧
        one.payload.integer = 1 ∧ start.lookup? inner.scope "x" = some (.value one) ∧
        two.payload.integer = 2 ∧ start.lookup? inner.scope "y" = some (.value two) := by
  have plain := plain_pairDeeds "x" "y"
  have ready : PairReady "x" "y" := by decide +kernel
  obtain ⟨budget, scope, code, frame, state, inner, start, one, two, comesUp, entered, operands, isOne, isTwo⟩ :=
    pairCall_enters ready
  obtain ⟨-, arguments, rest, same, passes, every⟩ :=
    (arguments_reach_parameters none [] plain plain_pairCall).1 _ _ _ _ _ _ _ _ _ _ comesUp entered
  cases pair_of_reverse passes.matched (operands.symm.trans same)
  have distinct : ["x", "y"].Nodup := by decide
  exact ⟨plain, plain_pairCall, budget, scope, code, frame, state, inner, start, one, two, comesUp, entered,
    isOne, every distinct 0 "x" one rfl rfl, isTwo, every distinct 1 "y" two rfl rfl⟩

end Session

end LazyStack
