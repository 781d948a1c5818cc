import LazyStack.Proofs.StackHeight
import LazyStack.Proofs.Termination

/-!
Operands that lie deeper than a run reaches. The core callables look at the top of a stack and at
differences of its height alone. So a run that ends well goes the same way atop more operands, leaves
those as they are, and does everything else in the same way.
-/

namespace LazyStack

def StackId.footing (own : StackId) (below : Operands) (stack : StackId) : Operands :=
  if stack = own then below else []

/-- The state that differs in that a stack lies atop more operands. -/
def State.atop (state : State) (own : StackId) (below : Operands) : State :=
  state.setOperands own (state.operands own ++ below)

namespace State

variable {state : State} {own : StackId} (below : Operands)

theorem operands_atop (made : state.HasStack own) (stack : StackId) :
    (state.atop own below).operands stack = state.operands stack ++ own.footing below stack := by
  rw [atop, StackId.footing]
  by_cases same : stack = own
  · subst same
    rw [operands_setOperands_self made, if_pos rfl]
  · rw [operands_setOperands_of_ne state (Ne.symm same), if_neg same, List.append_nil]

theorem setOperands_atop (made : state.HasStack own) (stack : StackId) (values : Operands) :
    (state.setOperands stack values).atop own below =
      (state.atop own below).setOperands stack (values ++ own.footing below stack) := by
  have still : (state.setOperands stack values).HasStack own := hasStack_setOperands.mpr made
  rw [StackId.footing]
  by_cases same : stack = own
  · subst same
    rw [if_pos rfl, atop, atop, operands_setOperands_self made, setOperands_setOperands,
      setOperands_setOperands]
  · have apart : stack.index ≠ own.index := StackId.index_injective.ne same
    rw [if_neg same, List.append_nil, atop, operands_setOperands_of_ne state same, atop, setOperands,
      setOperands, setOperands, setOperands]
    dsimp only
    rw [Array.setIfInBounds_comm _ _ apart]

theorem withFrame_atop (made : state.HasStack own) (parent : Option ScopeId) :
    (state.atop own below).withFrame parent = (state.withFrame parent).atop own below := by
  have kept := operands_withFrame_of_hasStack parent made
  rw [HasStack] at made
  rw [atop, atop, kept, withFrame, withFrame, setOperands, setOperands]
  simp [Array.setIfInBounds, Array.set_push, made, Nat.lt_succ_of_lt made]

theorem bindAll_atop (scope : ScopeId) (names : List String) (values : List Value) (state : State) :
    bindAll scope names values (state.atop own below) = (bindAll scope names values state).atop own below := by
  induction names generalizing values state with
  | nil => rfl
  | cons name names ih =>
      cases values with
      | nil => rfl
      | cons value values => exact ih values (state.bind scope name (.value value))

theorem withArguments_atop (made : state.HasStack own) (scope : ScopeId) {parameters : List String}
    {frame : Frame} (present : parameters.length ≤ (state.operands frame.stack).length) :
    (state.atop own below).withArguments scope parameters frame =
      (state.withArguments scope parameters frame).atop own below := by
  have taken : (state.setOperands frame.stack
      ((state.operands frame.stack).drop parameters.length)).HasStack own :=
    hasStack_setOperands.mpr made
  rw [withArguments, withArguments, operands_atop below made, List.take_append_of_le_length present,
    List.drop_append_of_le_length present, ← setOperands_atop below made, withFrame_atop below taken, bindAll_atop]
  rfl

theorem hasStack_withArguments (made : state.HasStack own) (scope : ScopeId) (parameters : List String)
    (frame : Frame) : (state.withArguments scope parameters frame).HasStack own := by
  rw [HasStack] at made
  simp only [HasStack, operandStacks_withArguments, setOperands, Array.size_push, Array.size_setIfInBounds]
  omega

theorem nextFrame_atop (depth : Int) : (state.atop own below).nextFrame depth = state.nextFrame depth :=
  state.nextFrame_setOperands depth own _

theorem naming_atop : (state.atop own below).naming = state.naming :=
  naming_of_same rfl rfl

end State

namespace Run

variable {α β : Type} {own : StackId} {below : Operands} {state : State}

/-- A run that goes the same way atop more operands if it ends well. -/
def Overlooks (own : StackId) (below : Operands) (run : Run α) (state : State) : Prop :=
  state.HasStack own → ∀ result final, run state = .ok result final →
    final.HasStack own ∧ run (state.atop own below) = .ok result (final.atop own below)

theorem Overlooks.bind {run : Run α} {next : α → Run β} (first : run.Overlooks own below state)
    (later : ∀ result middle, run state = .ok result middle → (next result).Overlooks own below middle) :
    (run >>= next).Overlooks own below state := by
  intro made result final ran
  obtain ⟨found, middle, begun, rest⟩ := bind_eq_ok.mp ran
  obtain ⟨still, same⟩ := first made found middle begun
  rw [bind_of_ok same]
  exact later found middle begun still result final rest

theorem Reads.overlooks {run : Run α} (reads : Reads run)
    (same : ∀ result, run state = .ok result state →
      run (state.atop own below) = .ok result (state.atop own below)) :
    run.Overlooks own below state := by
  intro made result final ran
  have unchanged := reads.final_of_ok ran
  subst unchanged
  exact ⟨made, same result ran⟩

theorem overlooks_pure (result : α) : (pure result : Run α).Overlooks own below state :=
  (reads_pure result).overlooks fun found same => by cases same; rfl

theorem overlooks_throw (failure : Failure) : (throw failure : Run α).Overlooks own below state :=
  fun _ _ _ impossible => nomatch impossible

theorem overlooks_record (event : Event) : (record event).Overlooks own below state := by
  intro made result final ran
  cases ran
  exact ⟨made, rfl⟩

end Run

section Operations

open Run

variable {below : Operands} {state : State}

theorem StackId.overlooks_push (stack : StackId) {own : StackId} (value : Value) :
    (stack.push value).Overlooks own below state := by
  intro made result final ran
  cases ran
  refine ⟨State.hasStack_setOperands.mpr made, ?_⟩
  rw [stack.push_apply, State.operands_atop below made, State.setOperands_atop below made, List.cons_append]

theorem StackId.overlooks_pop (stack : StackId) {own : StackId} :
    stack.pop.Overlooks own below state := by
  intro made result final ran
  cases present : state.operands stack with
  | nil => cases (stack.pop_of_nil state present).symm.trans ran
  | cons value rest =>
      cases (stack.pop_of_cons state present).symm.trans ran
      have under : (state.atop own below).operands stack = result :: (rest ++ own.footing below stack) := by
        rw [State.operands_atop below made, present, List.cons_append]
      refine ⟨State.hasStack_setOperands.mpr made, ?_⟩
      rw [stack.pop_of_cons _ under, State.setOperands_atop below made]

variable {own : StackId}

theorem ScopeId.overlooks_lookup (scope : ScopeId) (name : String) :
    (scope.lookup name).Overlooks own below state := by
  intro made binding final found
  obtain ⟨bound, unchanged⟩ := ScopeId.lookup_eq_ok found
  subst unchanged
  have scopes : (final.atop own below).scopes = final.scopes := rfl
  have same := State.lookup?_of_scopes scopes scope name
  refine ⟨made, ?_⟩
  rw [scope.lookup_apply, same, bound]

theorem DomainId.overlooks_typeName (domain : DomainId) (tag : Tag) :
    (domain.typeName tag).Overlooks own below state := by
  refine (domain.reads_typeName tag).overlooks fun name found => ?_
  obtain ⟨named, _⟩ := ofExcept_eq_ok found
  have same : (state.atop own below).domain domain = state.domain domain := rfl
  rw [domain.typeName_apply, same, named]
  rfl

theorem DomainId.overlooks_create (domain : DomainId) (tag : Tag) (payload : Payload) :
    (domain.create tag payload).Overlooks own below state := by
  intro made value final created
  obtain ⟨rfl, rfl⟩ := domain.create_eq_ok created
  refine ⟨made, ?_⟩
  have same : (state.atop own below).domain domain = state.domain domain := rfl
  rw [create_apply] at created ⊢
  rw [same]
  split at created
  · cases created
  · split at created
    · next fitting =>
        rw [if_pos fitting]
        rfl
    · cases created

theorem Run.Overlooks.compositional : Run.Compositional (Run.Overlooks own below) where
  bind := Run.Overlooks.bind
  pure result _ := overlooks_pure result
  refuse failure _ _ := overlooks_throw failure
  refuseShowing _ _ _ _ := fun _ _ _ impossible => nomatch impossible
  null domain _ := domain.reads_null.overlooks fun _ found => by cases found; rfl
  typeName domain tag _ := domain.overlooks_typeName tag
  lookup scope name _ := scope.overlooks_lookup name

theorem Run.Overlooks.compositionalOn (stack : StackId) : Run.CompositionalOn stack (Run.Overlooks own below) where
  toCompositional := Run.Overlooks.compositional
  pop _ := stack.overlooks_pop
  push value _ := stack.overlooks_push value
  create domain tag payload _ := domain.overlooks_create tag payload
  newPromise scope body _ := by
    intro made id final ran
    cases ran
    exact ⟨made, rfl⟩

theorem overlooks_enterClosure (scope : ScopeId) (parameters : List String) (frame : Frame) :
    (enterClosure scope parameters frame).Overlooks own below state := by
  intro made inner start entered
  obtain ⟨shallow, present, rfl, rfl⟩ := enterClosure_eq_ok entered
  have limit : (state.atop own below).callLimit = state.callLimit := rfl
  have longer : ¬ ((state.atop own below).operands frame.stack).length < parameters.length := by
    rw [State.operands_atop below made, List.length_append]
    omega
  rw [enterClosure_apply, limit, if_neg (Int.not_lt.mpr shallow), if_neg longer, State.nextFrame_atop,
    State.withArguments_atop below made scope present]
  exact ⟨State.hasStack_withArguments made scope parameters frame, rfl⟩

theorem overlooks_enterPromise (scope : Option ScopeId) (frame : Frame) :
    (enterPromise scope frame).Overlooks own below state := by
  intro made inner start entered
  obtain ⟨shallow, rfl, rfl⟩ := enterPromise_eq_ok entered
  have limit : (state.atop own below).callLimit = state.callLimit := rfl
  rw [enterPromise_apply, limit, if_neg (Int.not_lt.mpr shallow), State.nextFrame_atop,
    State.withFrame_atop below made]
  exact ⟨State.hasStack_withFrame_of_hasStack scope made, rfl⟩

theorem overlooks_soleResult {stack : StackId} (apart : own ≠ stack) (failure : Nat → Failure) :
    (soleResult stack failure).Overlooks own below state := by
  intro made value final ran
  have same : (state.atop own below).operands stack = state.operands stack :=
    state.operands_setOperands_of_ne apart _
  rw [soleResult, bind_of_ok (stack.size_apply _)] at ran ⊢
  rw [same]
  split at ran
  next single =>
    rw [if_pos single]
    exact stack.overlooks_pop made value final ran
  next => cases ran

theorem overlooks_store (id : PromiseId) (value : Value) (stack : StackId) :
    Overlooks own below
      (do modify fun state => state.resolve id value
          Run.record (.promiseResolved id ((← get).valueText value))
          stack.push value) state := by
  refine Overlooks.bind (fun made _ _ ran => ?_) fun _ middle _ => ?_
  · cases ran
    exact ⟨made, rfl⟩
  · intro made result final ran
    have text : (middle.atop own below).valueText value = middle.valueText value := by
      rw [State.valueText, State.naming_atop, State.valueText]
    rw [bind_of_ok (get_apply _)] at ran ⊢
    rw [text]
    exact ((overlooks_record _).bind fun _ _ _ => stack.overlooks_push value) made result final ran

end Operations

def Activity.OfHost : Activity → Prop
  | .body (.host _ _) _ _ _ => True
  | .program _ => True
  | .action _ => True
  | _ => False

namespace Moment

/-- Nothing in the course of a moment is the work of a host: what is called are core callables alone. -/
def Hostless (whole : Moment) : Prop :=
  ∀ inner, whole.Reaches inner → ¬ inner.activity.OfHost

theorem Hostless.part {whole part : Moment} (hostless : whole.Hostless) (starts : whole.Starts part) :
    part.Hostless :=
  fun inner reached => hostless inner (.inside starts reached)

theorem hostless_of_parts {whole : Moment} (own : ¬ whole.activity.OfHost)
    (parts : ∀ part, whole.Starts part → part.Hostless) : whole.Hostless := by
  intro inner reached
  cases reached with
  | here => exact own
  | inside starts deeper => exact parts _ starts inner deeper

theorem hostless_step_push (budget : Nat) (frame : Frame) (value : Value) (state : State) :
    Hostless ⟨budget, .step frame (.push value), state⟩ :=
  hostless_of_parts id fun _ impossible => nomatch impossible

theorem hostless_nil (budget : Nat) (frame : Frame) (state : State) :
    Hostless ⟨budget, .steps frame [], state⟩ :=
  hostless_of_parts id fun _ impossible => nomatch impossible

section Bodies

variable {own : StackId} {below : Operands} {budget : Nat} {frame : Frame} {args returns : Option Int}
  {state : State}

theorem within_overlooks {inner : Frame} {code : List Step} {start : State}
    (nested : ∀ smaller, budget = smaller + 1 →
      ((Activity.steps inner code).run smaller).Overlooks own below start) :
    ((Machine.within budget).run inner code).Overlooks own below start := by
  cases budget with
  | zero => exact Run.overlooks_throw _
  | succ smaller => exact nested smaller rfl

theorem closure_overlooks {scope : ScopeId} {code : List Step} {parameters : List String}
    (nested : ∀ part,
      Starts ⟨budget, .body (.closure scope code parameters) frame args returns, state⟩ part →
      (part.activity.run part.budget).Overlooks own below part.state) :
    (runClosure (.within budget) scope code parameters frame).Overlooks own below state := by
  intro made
  refine Run.Overlooks.bind (overlooks_enterClosure _ _ _) (fun inner start entered => ?_) made
  have apart := (enterClosure_opens entered).stack_apart made
  refine Run.Overlooks.bind (within_overlooks fun smaller same => ?_) fun _ _ _ => ?_
  · subst same
    exact nested _ (.closure entered)
  · exact (overlooks_soleResult apart _).bind fun result _ _ => frame.stack.overlooks_push result

theorem promise_overlooks {id : PromiseId}
    (nested : ∀ part, Starts ⟨budget, .body (.promise id) frame args returns, state⟩ part →
      (part.activity.run part.budget).Overlooks own below part.state) :
    (runPromise (.within budget) id frame).Overlooks own below state := by
  intro made result final ran
  have same : (state.atop own below).promise id = state.promise id := rfl
  cases present : (state.promise id).value with
  | some value =>
      rw [runPromise_of_value present] at ran
      rw [runPromise_of_value (same ▸ present)]
      exact frame.stack.overlooks_push value made result final ran
  | none =>
      rw [runPromise_of_pending present] at ran
      rw [runPromise_of_pending (same ▸ present), same]
      refine Run.Overlooks.bind ?_ (fun value _ _ => overlooks_store id value frame.stack) made result
        final ran
      rw [Promise.compute]
      intro made
      refine Run.Overlooks.bind (overlooks_enterPromise _ _) (fun inner start entered => ?_) made
      have apart := (enterPromise_opens entered).stack_apart made
      refine Run.Overlooks.bind (within_overlooks fun smaller same => ?_) fun _ _ _ => ?_
      · subst same
        exact nested _ (.promise present entered)
      · exact overlooks_soleResult apart _

-- A call compares the height of its stack with the height before, so the operands below cancel out.
theorem call_overlooks {target : Callable}
    (nested : ∀ part, Starts ⟨budget, .call target frame args returns, state⟩ part →
      (part.activity.run part.budget).Overlooks own below part.state) :
    (Callable.callWithin budget target frame args returns).Overlooks own below state := by
  intro made result final ran
  rw [Callable.callWithin_eq] at ran ⊢
  obtain ⟨admitted, finished, settled⟩ := Callable.callOnce_eq_ok_iff.mp ran
  obtain ⟨still, same⟩ := nested _ (.body admitted) made result final finished
  refine ⟨still, Callable.callOnce_eq_ok_iff.mpr ⟨?_, same, ?_⟩⟩
  · intro signature declared
    obtain ⟨accepted, present⟩ := admitted signature declared
    refine ⟨accepted, ?_⟩
    rw [State.operands_atop below made, List.length_append]
    omega
  · intro signature declared
    have balance := settled signature declared
    rw [State.operands_atop below made, State.operands_atop below still, List.length_append,
      List.length_append]
    omega

end Bodies

theorem run_overlooks {own : StackId} {below : Operands} (whole : Moment) (hostless : whole.Hostless) :
    (whole.activity.run whole.budget).Overlooks own below whole.state := by
  induction whole using Moment.induction with
  | whole whole ih =>
  have nested (part : Moment) (starts : whole.Starts part) :
      (part.activity.run part.budget).Overlooks own below part.state :=
    ih part starts (hostless.part starts)
  have core := hostless whole (.here whole)
  obtain ⟨budget, activity, state⟩ := whole
  cases activity with
  | call target frame args returns => exact call_overlooks nested
  | body target frame args returns =>
      cases target with
      | closure scope code parameters => exact closure_overlooks nested
      | promise id => exact promise_overlooks nested
      | makeClosure domain =>
          exact (Run.Overlooks.compositionalOn frame.stack).makeClosure (fun event _ => Run.overlooks_record event)
            domain
      | delay => exact (Run.Overlooks.compositionalOn frame.stack).delay
      | force =>
          exact (Run.Overlooks.compositionalOn frame.stack).force (fun _ _ => Run.overlooks_throw _) nested
      | isPromise => exact (Run.Overlooks.compositionalOn frame.stack).isPromise
      | host id header => exact absurd trivial core
  | step frame step => exact Run.Overlooks.compositional.step (fun value => frame.stack.overlooks_push value) nested
  | steps frame code =>
      cases code with
      | nil => exact Run.overlooks_pure ()
      | cons step rest =>
          exact Run.Overlooks.bind (nested _ .first) fun _ middle executed => nested _ (.rest executed)
  | program actions => exact absurd trivial core
  | action action => exact absurd trivial core

end Moment

/-- Code in whose course no host is called, if it ends well on some operands, ends well on them atop any others, leaves
what it has left before atop those, and makes the same of everything else. -/
theorem operands_below_are_invisible (frame : Frame) (code : List Step) (state final : State)
    (above below : Operands) (made : state.HasStack frame.stack)
    (hostless : (Moment.ofCode frame code (state.setOperands frame.stack above)).Hostless)
    (ran : runCode frame code (state.setOperands frame.stack above) = .ok () final) :
    runCode frame code (state.setOperands frame.stack (above ++ below)) =
      .ok () (final.setOperands frame.stack (final.operands frame.stack ++ below)) := by
  have held : (state.setOperands frame.stack above).HasStack frame.stack :=
    State.hasStack_setOperands.mpr made
  have atop : (state.setOperands frame.stack above).atop frame.stack below =
      state.setOperands frame.stack (above ++ below) := by
    rw [State.atop, State.operands_setOperands_self made, State.setOperands_setOperands]
  rw [runCode_apply] at ran ⊢
  rw [← atop]
  exact (Moment.run_overlooks _ hostless held () final ran).2

def promisedNine : Value :=
  ⟨⟨0⟩, .callable, .callable (.promise ⟨0⟩), 101⟩

def ninePromised : State :=
  State.through [.addEnvironment none, .addTopFrame ⟨0⟩, .addPromise ⟨0⟩ [.push nine]] (.empty 125)

def forcing : List Step :=
  [.call "force" none none]

theorem forcing_hostless :
    (Moment.ofCode firstFrame forcing (ninePromised.setOperands ⟨0⟩ [promisedNine])).Hostless := by
  refine Moment.hostless_of_parts id fun part starts => ?_
  cases starts with
  | rest _ => exact Moment.hostless_nil _ _ _
  | first =>
      refine Moment.hostless_of_parts id fun part starts => ?_
      cases starts with
      | named bound resolved =>
          cases bound
          cases resolved
          refine Moment.hostless_of_parts id fun part starts => ?_
          cases starts with
          | body _ =>
              refine Moment.hostless_of_parts id fun part starts => ?_
              cases starts with
              | force popped expected =>
                  cases popped
                  cases expected
                  refine Moment.hostless_of_parts id fun part starts => ?_
                  cases starts with
                  | body _ =>
                      refine Moment.hostless_of_parts id fun part starts => ?_
                      cases starts with
                      | promise _ entered =>
                          refine Moment.hostless_of_parts id fun part starts => ?_
                          cases starts with
                          | first => exact Moment.hostless_step_push _ _ _ _
                          | rest _ => exact Moment.hostless_nil _ _ _

theorem operands_below_are_invisible_to_forcing :
    ∃ final, runCode firstFrame forcing (ninePromised.setOperands ⟨0⟩ [promisedNine]) = .ok () final ∧
      final.operands ⟨0⟩ = [nine] ∧ (final.promise ⟨0⟩).value = some nine ∧
      runCode firstFrame forcing (ninePromised.setOperands ⟨0⟩ [promisedNine, nine, nine]) =
        .ok () (final.setOperands ⟨0⟩ (final.operands ⟨0⟩ ++ [nine, nine])) :=
  ⟨_, rfl, rfl, rfl, operands_below_are_invisible firstFrame forcing ninePromised _ [promisedNine]
    [nine, nine] (by decide) forcing_hostless rfl⟩

end LazyStack
