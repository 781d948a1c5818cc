import LazyStack.Evaluate.Call

/-!
Properties of runs that compose. Where a property holds of two runs in turn if it holds of each, it holds of a longer
run if it holds of what that does in turn. So it is shown of the core callables once, whatever the property says.
-/

namespace LazyStack

/-- A property of runs that holds of two in turn if it holds of each. It holds of the single ways of reading as well,
and of refusing something for its type. -/
structure Run.Compositional (holds : ∀ {α : Type}, Run α → State → Prop) : Prop where
  bind {α β : Type} {run : Run α} {next : α → Run β} {state : State} : holds run state →
    (∀ result middle, run state = .ok result middle → holds (next result) middle) → holds (run >>= next) state
  pure {α : Type} (result : α) (state : State) : holds (pure result) state
  refuse {α : Type} (failure : Failure) (state : State) : failure.kind = .type → holds (throw failure : Run α) state
  refuseShowing {α : Type} (value : Value) (wording : String → Failure) (state : State) :
    (∀ text, (wording text).kind = .type) →
      holds (do throw (.worded wording ((← get).valueText value)) : Run α) state
  null (domain : DomainId) (state : State) : holds domain.null state
  typeName (domain : DomainId) (tag : Tag) (state : State) : holds (domain.typeName tag) state
  lookup (scope : ScopeId) (name : String) (state : State) : holds (scope.lookup name) state

/-- The property holds as well of what is done with one stack and of what is made. -/
structure Run.CompositionalOn (stack : StackId) (holds : ∀ {α : Type}, Run α → State → Prop) : Prop
    extends Run.Compositional holds where
  pop (state : State) : holds stack.pop state
  push (value : Value) (state : State) : holds (stack.push value) state
  create (domain : DomainId) (tag : Tag) (payload : Payload) (state : State) :
    holds (domain.create tag payload) state
  newPromise (scope : ScopeId) (body : List Step) (state : State) : holds (Run.newPromise scope body) state

namespace Run

variable {holds : ∀ {α : Type}, Run α → State → Prop}

namespace Compositional

variable (compositional : Compositional holds)
include compositional

theorem expect (value : Value) (tag : Tag) (description : String) (state : State) :
    holds (value.expect tag description) state := by
  rw [Value.expect]
  split
  · exact compositional.pure _ state
  · refine compositional.bind (compositional.typeName value.domain tag state) fun expected first _ => ?_
    refine compositional.bind (compositional.typeName value.domain value.tag first) fun found second _ => ?_
    exact compositional.refuseShowing value (.unexpected expected description found) second fun _ => rfl

theorem callee (binding : Binding) (name : String) (state : State) : holds (binding.callee name) state := by
  cases binding with
  | callable target => exact compositional.pure target state
  | value bound =>
      rw [Binding.callee]
      split
      · exact compositional.pure _ state
      · exact compositional.bind (compositional.typeName bound.domain bound.tag state) fun found middle _ =>
          compositional.refuse (.notCallable name found) middle rfl

theorem parameterName (element : Value) (state : State) : holds element.parameterName state :=
  compositional.bind (compositional.expect element _ _ state) fun _ middle _ => compositional.pure _ middle

theorem mapM_parameterName (elements : List Value) (state : State) :
    holds (elements.mapM Value.parameterName) state := by
  induction elements generalizing state with
  | nil => exact compositional.pure [] state
  | cons element rest ih =>
      rw [List.mapM_cons]
      refine compositional.bind (compositional.parameterName element state) fun name first _ => ?_
      exact compositional.bind (ih first) fun names second _ => compositional.pure _ second

theorem parameterNames (domain : DomainId) (value : Value) (state : State) :
    holds (domain.parameterNames value) state := by
  rw [DomainId.parameterNames]
  refine compositional.bind (compositional.null domain state) fun null first _ => ?_
  split
  · exact compositional.pure [] first
  · split
    · refine compositional.bind (compositional.mapM_parameterName value.elements first) fun names second _ => ?_
      split
      · exact compositional.pure names second
      · exact compositional.refuseShowing value.terminator .openParameterList second fun _ => rfl
    · refine compositional.bind (compositional.typeName value.domain value.tag first) fun name second _ => ?_
      exact compositional.refuseShowing value (.notParameterList name) second fun _ => rfl

end Compositional

namespace CompositionalOn

variable {frame : Frame} (compositional : CompositionalOn frame.stack holds) {state : State}
include compositional

theorem makeClosure (record : ∀ event state, holds (Run.record event) state) (domain : DomainId) :
    holds (runMakeClosure domain frame) state := by
  rw [runMakeClosure]
  refine compositional.bind (compositional.pop state) fun code first _ => ?_
  refine compositional.bind (compositional.expect code _ _ first) fun quoted second _ => ?_
  refine compositional.bind (compositional.pop second) fun names third _ => ?_
  refine compositional.bind (compositional.parameterNames domain names third) fun _ fourth _ => ?_
  refine compositional.bind (record _ fourth) fun _ fifth _ => ?_
  exact compositional.bind (compositional.create domain _ _ fifth) fun closure last _ =>
    compositional.push closure last

theorem delay : holds (runDelay frame) state := by
  rw [runDelay]
  refine compositional.bind (compositional.pop state) fun argument first _ => ?_
  refine compositional.bind (compositional.expect argument _ _ first) fun code second _ => ?_
  refine compositional.bind (compositional.newPromise frame.scope _ second) fun promise third _ => ?_
  exact compositional.bind (compositional.create argument.domain _ _ third) fun value last _ =>
    compositional.push value last

theorem isPromise : holds (runIsPromise frame) state := by
  rw [runIsPromise]
  refine compositional.bind (compositional.pop state) fun value first _ => ?_
  exact compositional.bind (compositional.create value.domain _ _ first) fun answer last _ =>
    compositional.push answer last

end CompositionalOn

end Run

end LazyStack
