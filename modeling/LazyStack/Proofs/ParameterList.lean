import LazyStack.Proofs.Grammar
import LazyStack.Proofs.Interpreter

/-!
Lists of parameters. A lambda is compiled to a list of its parameters that goes on with the null that its
form is made with, and `closure` reads the names back from the list, if it ends in the null of its own
domain. The two agree on every list that is built: the names of the lambda come first and in order, and
whether the list is read at all depends on the null of the form alone.
-/

namespace LazyStack

namespace Value

/-- A value that lists names: the null itself, or a list of symbols that ends in it. -/
def ListsNames (value null : Value) : Prop :=
  value.same null ∨
    value.tag = .cell ∧ (∀ element ∈ value.elements, element.tag = .symbol) ∧ value.terminator.same null

def listedNames (value : Value) : List String :=
  value.elements.map fun element => element.payload.symbolName

/-- What may keep a value from listing names: an element that is no symbol, or what the elements end in. -/
def Obstructs (part value : Value) : Prop :=
  part ∈ value.elements ∧ part.tag ≠ .symbol ∨ part = value.terminator

variable {value null : Value} {state : State}

theorem elements_of_ne_cell (plain : value.tag ≠ .cell) : value.elements = [] := by
  obtain ⟨domain, tag, payload, identity⟩ := value
  cases tag with
  | cell => exact absurd rfl plain
  | _ => rfl

theorem terminator_of_ne_cell (plain : value.tag ≠ .cell) : value.terminator = value := by
  obtain ⟨domain, tag, payload, identity⟩ := value
  cases tag with
  | cell => exact absurd rfl plain
  | _ => rfl

theorem mapM_parameterName (elements : List Value) (state : State) :
    ((∀ element ∈ elements, element.tag = .symbol) ∧ elements.mapM parameterName state =
        .ok (elements.map fun element => element.payload.symbolName) state) ∨
      ∃ element ∈ elements, element.tag ≠ .symbol ∧
        ∃ failure, failure.Refuses (state.valueText element) ∧
          elements.mapM parameterName state = .error failure state := by
  induction elements with
  | nil => exact .inl ⟨by simp, rfl⟩
  | cons element rest ih =>
      rw [List.mapM_cons]
      by_cases symbol : element.tag = .symbol
      · have first : element.parameterName state = .ok element.payload.symbolName state := by
          rw [parameterName, Run.bind_of_ok (element.expect_of_tag _ symbol)]
          rfl
        rw [Run.bind_of_ok first]
        rcases ih with ⟨symbols, read⟩ | ⟨other, member, plain, failure, refuses, failed⟩
        · refine .inl ⟨by simpa [symbol] using symbols, ?_⟩
          rw [Run.bind_of_ok read]
          rfl
        · exact .inr ⟨other, .tail _ member, plain, failure, refuses, Run.bind_of_error failed⟩
      · obtain ⟨failure, refuses, failed⟩ := element.expect_of_ne "lambda args list element" symbol
        exact .inr ⟨element, .head _, symbol, failure, refuses, Run.bind_of_error (Run.bind_of_error failed)⟩

theorem parameterNames_outcomes (value : Value) (domain : DomainId) (state : State) :
    (value.ListsNames (state.domain domain).null ∧ domain.parameterNames value state =
        .ok (if value.same (state.domain domain).null then [] else value.listedNames) state) ∨
      ¬ value.ListsNames (state.domain domain).null ∧
        ∃ part failure, part.Obstructs value ∧ failure.Refuses (state.valueText part) ∧
          domain.parameterNames value state = .error failure state := by
  have found : domain.null state = .ok (state.domain domain).null state := rfl
  rw [DomainId.parameterNames, Run.bind_of_ok found]
  by_cases same : value.same (state.domain domain).null = true
  · rw [if_pos same, if_pos same]
    exact .inl ⟨.inl same, rfl⟩
  · rw [if_neg same, if_neg same]
    by_cases list : value.tag = .cell
    · rw [if_pos list]
      rcases mapM_parameterName value.elements state with
        ⟨symbols, read⟩ | ⟨element, member, plain, failure, refuses, failed⟩
      · rw [Run.bind_of_ok read]
        by_cases ended : value.terminator.same (state.domain domain).null = true
        · rw [if_pos ended]
          exact .inl ⟨.inr ⟨list, symbols, ended⟩, rfl⟩
        · rw [if_neg ended]
          have refuses := Failure.worded_refuses .openParameterList (fun _ => rfl) (state.valueText value.terminator)
          refine .inr ⟨?_, value.terminator, _, .inr rfl, refuses, rfl⟩
          rintro (null | ⟨_, _, ends⟩)
          · exact same null
          · exact ended ends
      · refine .inr ⟨?_, element, failure, .inl ⟨member, plain⟩, refuses, Run.bind_of_error failed⟩
        rintro (null | ⟨_, symbols, _⟩)
        · exact same null
        · exact plain (symbols element member)
    · rw [if_neg list]
      have refused : ∃ failure, failure.Refuses (state.valueText value) ∧
          (value.typeName >>= fun name => do
            throw (.worded (.notParameterList name) ((← get).valueText value)) : Run (List String)) state =
              .error failure state :=
        value.domain.refuses_naming value.tag (.inl rfl) fun name =>
          ⟨_, Failure.worded_refuses (.notParameterList name) (fun _ => rfl) _, rfl⟩
      obtain ⟨failure, refuses, failed⟩ := refused
      refine .inr ⟨?_, value, failure, .inr (terminator_of_ne_cell list).symm, refuses, failed⟩
      rintro (null | ⟨cell, _⟩)
      · exact same null
      · exact list cell

theorem parameterNames_cases {domain : DomainId} (own : (state.domain domain).null = null)
    (genuine : value.same null = true → value.tag ≠ .cell) :
    (value.ListsNames null ∧ domain.parameterNames value state = .ok value.listedNames state) ∨
      ¬ value.ListsNames null ∧
        ∃ part failure, part.Obstructs value ∧ failure.Refuses (state.valueText part) ∧
          domain.parameterNames value state = .error failure state := by
  subst own
  rcases value.parameterNames_outcomes domain state with ⟨lists, read⟩ | refused
  · refine .inl ⟨lists, read.trans ?_⟩
    split
    next same => rw [listedNames, elements_of_ne_cell (genuine same), List.map_nil]
    next => rfl
  · exact .inr refused

end Value

namespace DomainId

variable {domain : DomainId} {items : List Value} {rest list : Value} {before after : State}

theorem list_eq_ok (made : domain.list items rest before = .ok list after) :
    (items = [] ∧ list = rest ∨ list.tag = .cell ∧ before.nextIdentity ≤ list.identity) ∧
      list.elements = items ++ rest.elements ∧ list.terminator = rest.terminator ∧
      before.nextIdentity ≤ after.nextIdentity := by
  induction items generalizing list after with
  | nil =>
      cases made
      exact ⟨.inl ⟨rfl, rfl⟩, rfl, rfl, Nat.le_refl _⟩
  | cons item items ih =>
      rw [DomainId.list, List.foldrM_cons] at made
      obtain ⟨tail, middle, further, last⟩ := Run.bind_eq_ok.mp made
      obtain ⟨-, elements, terminator, later⟩ := ih further
      obtain ⟨rfl, rfl⟩ := domain.create_eq_ok last
      refine ⟨.inr ⟨rfl, later⟩, ?_, ?_, Nat.le_succ_of_le later⟩
      · rw [List.cons_append, ← elements, Value.elements, Value.walk, List.map_cons, Value.elements]
      · rw [← terminator, Value.terminator]

end DomainId

theorem Value.Obstructs.of_list {domain : DomainId} {symbols : List Value} {rest list part : Value}
    {before after : State} (obstructs : part.Obstructs list) (made : domain.list symbols rest before = .ok list after)
    (tags : ∀ symbol ∈ symbols, symbol.tag = .symbol) : part.Obstructs rest := by
  obtain ⟨-, elements, terminator, -⟩ := DomainId.list_eq_ok made
  rcases obstructs with ⟨member, plain⟩ | ends
  · rw [elements, List.mem_append] at member
    exact .inl ⟨member.resolve_left fun symbol => plain (tags part symbol), plain⟩
  · exact .inr (ends.trans terminator)

theorem Value.listsNames_of_list {domain : DomainId} {symbols : List Value} {rest list null : Value}
    {before after : State} (made : domain.list symbols rest before = .ok list after)
    (tags : ∀ symbol ∈ symbols, symbol.tag = .symbol) (older : null.identity < before.nextIdentity)
    (genuine : rest.same null = true → rest.tag ≠ .cell) :
    (list.ListsNames null ↔ rest.ListsNames null) ∧ (list.same null = true → list.tag ≠ .cell) := by
  obtain ⟨shape, elements, terminator, -⟩ := DomainId.list_eq_ok made
  rcases shape with ⟨rfl, rfl⟩ | ⟨cell, newer⟩
  · exact ⟨Iff.rfl, genuine⟩
  · have apart : list.same null ≠ true := by
      intro same
      have equal : list.identity = null.identity := by simpa [Value.same] using same
      omega
    refine ⟨?_, fun same => absurd same apart⟩
    have symbolic : (∀ element ∈ list.elements, element.tag = .symbol) ↔
        ∀ element ∈ rest.elements, element.tag = .symbol := by
      rw [elements]
      simp only [List.mem_append, or_imp, forall_and]
      exact and_iff_right tags
    rw [ListsNames, symbolic, terminator, ListsNames]
    by_cases further : rest.tag = .cell
    · have own : rest.same null ≠ true := fun same => genuine same further
      simp only [cell, further, apart, own, false_or, true_and, Bool.false_eq_true]
    · rw [elements_of_ne_cell further, terminator_of_ne_cell further]
      simp [cell, further, apart]

/-- The node whose code a lambda quotes: of a body that is written out as code, what is written. -/
def Node.content : Node → Node
  | .raw _ body => body
  | node => node

theorem Node.lower_lambda_content {form : LambdaForm} {parameters body : Node} {list : Value}
    {before after : State} {steps : List Step}
    (lowered : (Node.lambda form parameters body list).lower before = .ok steps after) :
    ∃ code middle quoter identity, body.content.lower before = .ok code middle ∧
      steps = [.push list, .push (quotedCode quoter code identity),
        .call form.closureName (some 2) (some 1)] := by
  obtain ⟨code, middle, quoted, ran, quoting, same⟩ := lower_lambda lowered
  subst same
  by_cases raw : body.isRaw
  · rw [if_pos raw] at quoting
    cases body with
    | raw quoter inner =>
        obtain ⟨written, reached, identity, lowers, same⟩ := lower_raw ran
        rw [same, List.cons.injEq, Step.push.injEq] at quoting
        exact ⟨written, reached, quoter, identity, lowers, by rw [quoting.1]⟩
    | _ => cases raw
  · rw [if_neg raw] at quoting
    obtain ⟨identity, rfl⟩ := quoting
    have plain : body.content = body := by
      cases body with
      | raw => exact absurd rfl raw
      | _ => rfl
    exact ⟨code, middle, form.domain, identity, plain.symm ▸ ran, rfl⟩

namespace LambdaForm

variable {form : LambdaForm} {parameters body node : Node} {null : Value} {before after : State}

theorem build_names (ran : form.build parameters body before = .ok node after) :
    ∃ names list, form.parameterNames before.naming parameters = .ok names ∧
      node = .lambda form parameters body list ∧ list.listedNames = names ++ form.null.listedNames := by
  obtain ⟨names, symbols, _, list, found, payloads, _, _, linked, same⟩ := build_parts ran
  have mapped := congrArg (List.map Payload.symbolName) payloads
  rw [List.map_map, List.map_map] at mapped
  have spelled : (symbols.map fun symbol => symbol.payload.symbolName) = names := mapped.trans (List.map_id names)
  refine ⟨names, list, found, same, ?_⟩
  rw [Value.listedNames, (DomainId.list_eq_ok linked).2.1, List.map_append, spelled, Value.listedNames]

theorem build_listsNames (ran : form.build parameters body before = .ok node after)
    (older : null.identity < before.nextIdentity)
    (genuine : form.null.same null = true → form.null.tag ≠ .cell) :
    ∃ names list, (form.parameterNodes parameters).map Node.parameterName? = names.map some ∧
      node = .lambda form parameters body list ∧ (list.ListsNames null ↔ form.null.ListsNames null) ∧
      (∀ part : Value, part.Obstructs list → part.Obstructs form.null) ∧
      list.listedNames = names ++ form.null.listedNames ∧ (list.same null = true → list.tag ≠ .cell) := by
  obtain ⟨names, list, found, same, listed⟩ := build_names ran
  obtain ⟨_, symbols, middle, _, _, _, tags, later, linked, also⟩ := build_parts ran
  rw [same] at also
  cases also
  have specified := Node.forall₂_names_iff.mp (names_of_collectNames found).1
  obtain ⟨reads, proper⟩ :=
    Value.listsNames_of_list linked tags (Nat.lt_of_lt_of_le older later) genuine
  exact ⟨names, list, specified, same, reads, fun part obstructs => obstructs.of_list linked tags, listed, proper⟩

end LambdaForm

def Value.parameters? : Value → Option (List String)
  | ⟨_, .callable, .callable (.closure _ _ parameters), _⟩ => some parameters
  | _ => none

theorem Value.closure_of_parameters? {value : Value} {parameters : List String}
    (named : value.parameters? = some parameters) : ∃ domain scope code identity,
      value = ⟨domain, .callable, .callable (.closure scope code parameters), identity⟩ := by
  unfold parameters? at named
  split at named
  · cases named
    exact ⟨_, _, _, _, rfl⟩
  · cases named

theorem push_callable_of_registered {domain : DomainId} {frame : Frame} {state : State} {target : Callable}
    (registered : ((state.domain domain).names.get? .callable).isSome) (made : state.HasStack frame.stack) :
    ∃ final, (domain.create .callable (.callable target) >>= frame.stack.push) state = .ok () final ∧
      final.promises = state.promises ∧
      final.operands frame.stack =
        ⟨domain, .callable, .callable target, state.nextIdentity⟩ :: state.operands frame.stack := by
  have created := DomainId.create_of_fits registered target.fits_callable
  have still : ({ state with nextIdentity := state.nextIdentity + 1 } : State).HasStack frame.stack := made
  refine ⟨_, Run.bind_of_ok created, rfl, State.operands_setOperands_self still _⟩

def State.withClosure (state : State) (domain : DomainId) (frame : Frame) (parameters : List String)
    (body : List Step) (rest : Operands) : State :=
  { (state.setOperands frame.stack
      (⟨domain, .callable, .callable (.closure frame.scope body parameters), state.nextIdentity⟩ :: rest)).record
        (.closureCreated parameters) with
    nextIdentity := state.nextIdentity + 1 }

theorem pushClosure_apply {domain : DomainId} {frame : Frame} {state : State}
    (registered : ((state.domain domain).names.get? .callable).isSome) (parameters : List String)
    (body : List Step) :
    pushClosure domain frame parameters body state =
      .ok () (state.withClosure domain frame parameters body (state.operands frame.stack)) := by
  have still : (((state.record (.closureCreated parameters)).domain domain).names.get? .callable).isSome :=
    registered
  exact Run.bind_of_ok (DomainId.create_of_fits still (Callable.fits_callable _))

theorem pushClosure_of_registered {domain : DomainId} {frame : Frame} {state : State}
    (registered : ((state.domain domain).names.get? .callable).isSome) (made : state.HasStack frame.stack)
    (parameters : List String) (body : List Step) :
    ∃ identity final, pushClosure domain frame parameters body state = .ok () final ∧
      final.operands frame.stack =
        ⟨domain, .callable, .callable (.closure frame.scope body parameters), identity⟩ ::
          state.operands frame.stack :=
  ⟨_, _, pushClosure_apply registered parameters body, State.operands_setOperands_self made _⟩

theorem pushClosure_eq_ok {domain : DomainId} {frame : Frame} {parameters : List String} {body : List Step}
    {state final : State} (pushed : pushClosure domain frame parameters body state = .ok () final)
    (made : state.HasStack frame.stack) :
    (∃ identity, final.operands frame.stack =
      ⟨domain, .callable, .callable (.closure frame.scope body parameters), identity⟩ ::
        state.operands frame.stack) ∧ final.log = state.log.push (.closureCreated parameters) := by
  obtain ⟨_, logged, recorded, further⟩ := Run.bind_eq_ok.mp pushed
  cases recorded
  obtain ⟨closure, middle, created, last⟩ := Run.bind_eq_ok.mp further
  obtain ⟨rfl, rfl⟩ := domain.create_eq_ok created
  rw [StackId.push_apply] at last
  cases last
  exact ⟨⟨_, State.operands_setOperands_self made _⟩, rfl⟩

theorem DomainId.parameterNames_eq_ok {domain : DomainId} {value : Value} {names : List String}
    {state final : State} (named : domain.parameterNames value state = .ok names final) :
    names = [] ∨ names = value.listedNames := by
  rcases value.parameterNames_outcomes domain state with ⟨_, read⟩ | ⟨_, _, failure, _, _, refused⟩
  · cases read.symm.trans named
    split
    · exact .inl rfl
    · exact .inr rfl
  · cases refused.symm.trans named

theorem runMakeClosure_cases (domain : DomainId) (frame : Frame) (state : State) :
    (∃ failure final, runMakeClosure domain frame state = .error failure final ∧ final.log = state.log) ∨
      ∃ quoted list rest parameters, state.operands frame.stack = quoted :: list :: rest ∧
        (parameters = [] ∨ parameters = list.listedNames) ∧
        runMakeClosure domain frame state =
          pushClosure domain frame parameters quoted.payload.steps (state.setOperands frame.stack rest) := by
  cases operands : state.operands frame.stack with
  | nil => exact .inl ⟨_, _, Run.bind_of_error (frame.stack.pop_of_nil state operands), rfl⟩
  | cons quoted above =>
      by_cases code : quoted.tag = .code
      · cases above with
        | nil =>
            have made : state.HasStack frame.stack := State.hasStack_of_operands (by simp [operands])
            rw [runMakeClosure, Run.bind_of_ok (frame.stack.pop_of_cons state operands),
              Run.bind_of_ok (quoted.expect_of_tag _ code)]
            have kept := State.operands_setOperands_self made []
            exact .inl ⟨_, _, Run.bind_of_error (frame.stack.pop_of_nil _ kept), rfl⟩
        | cons list rest =>
            rw [runMakeClosure_of_code operands code]
            rcases list.parameterNames_outcomes domain (state.setOperands frame.stack rest) with
              ⟨_, read⟩ | ⟨_, _, failure, _, _, refused⟩
            · exact .inr ⟨quoted, list, rest, _, rfl, DomainId.parameterNames_eq_ok read, Run.bind_of_ok read⟩
            · exact .inl ⟨failure, _, Run.bind_of_error refused, rfl⟩
      · obtain ⟨failure, _, refused⟩ := runMakeClosure_of_ne_code domain operands code
        exact .inl ⟨failure, _, refused, rfl⟩

def symbolNamed (name : String) (identity : Nat) : Value :=
  ⟨⟨0⟩, .symbol, .symbol name, identity⟩

def listOfY : Value :=
  ⟨⟨0⟩, .cell, .cell (symbolNamed "y" 1) firstNull, 2⟩

def listOfXAndY : Value :=
  ⟨⟨0⟩, .cell, .cell (symbolNamed "x" 3) listOfY, 4⟩

def codeOverXAndY : List Step :=
  [.push listOfXAndY, .push (quotedCode ⟨0⟩ [.get "x"] 5), .call closureName (some 2) (some 1)]

def oneFrameAfter (values : Nat) : State :=
  { oneFrame with nextIdentity := values }

def endlessForm : LambdaForm :=
  ⟨⟨0⟩, selfHolding, closureName⟩

def endlessList : Value :=
  ⟨⟨0⟩, .cell, .cell (symbolNamed "x" 6) selfHolding, 7⟩

def endlessCode : List Step :=
  [.push endlessList, .push (quotedCode ⟨0⟩ [.get "x"] 8), .call closureName (some 2) (some 1)]

def selfClosed (values : Nat) : State :=
  { oneFrameAfter values with promises := #[.resolved selfHolding] }

end LazyStack
