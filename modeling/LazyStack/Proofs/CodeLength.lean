import LazyStack.Proofs.StepCount

/-!
How long the codes of a run are. A run only hands on the codes that it finds in values, closures and
promises. So no code that comes up is longer than the longest of those that there were before, and of
those that hosts hand over.
-/

namespace LazyStack

mutual

def Value.longest : Value → Nat
  | ⟨_, _, payload, _⟩ => payload.longest

def Payload.longest : Payload → Nat
  | .cell head tail => max head.longest tail.longest
  | .code steps => max steps.length (longestIn steps)
  | .callable target => target.longest
  | _ => 0

def Callable.longest : Callable → Nat
  | .closure _ body _ => max body.length (longestIn body)
  | _ => 0

def longestIn : List Step → Nat
  | [] => 0
  | step :: rest => max step.longest (longestIn rest)

def Step.longest : Step → Nat
  | .push value => value.longest
  | _ => 0

end

def Binding.longest : Binding → Nat
  | .value bound => bound.longest
  | .callable target => target.longest

def codeLongest (code : List Step) : Nat :=
  max code.length (longestIn code)

theorem codeLongest_le {code : List Step} {longest : Nat} :
    codeLongest code ≤ longest ↔ code.length ≤ longest ∧ longestIn code ≤ longest :=
  Nat.max_le

theorem Value.longest_eq (value : Value) : value.longest = value.payload.longest := by
  cases value
  rfl

theorem Value.codeLongest_steps_le (value : Value) : codeLongest value.payload.steps ≤ value.longest := by
  rw [longest_eq]
  cases value.payload with
  | code steps => exact Nat.le_refl _
  | _ => exact Nat.zero_le _

/-- No code that a state holds is longer than given. -/
structure State.CodesUpTo (longest : Nat) (state : State) : Prop where
  bindings {scope : ScopeId} {name : String} {binding : Binding} :
    (state.scope scope).bindings.get? name = some binding → binding.longest ≤ longest
  operands {stack : StackId} {value : Value} : value ∈ state.operands stack → value.longest ≤ longest
  bodies {id : PromiseId} : codeLongest ((state.promise id).body.getD []) ≤ longest
  values {id : PromiseId} {value : Value} :
    (state.promise id).value = some value → value.longest ≤ longest

namespace State.CodesUpTo

variable {longest : Nat} {state : State} (held : state.CodesUpTo longest)
include held

theorem setOperands (stack : StackId) {values : Operands}
    (short : ∀ value ∈ values, value.longest ≤ longest) :
    (state.setOperands stack values).CodesUpTo longest :=
  { held with
    operands := by
      intro other value member
      by_cases same : stack = other
      · subst same
        by_cases made : state.HasStack stack
        · rw [operands_setOperands_self made] at member
          exact short value member
        · rw [State.operands, State.setOperands, Array.setIfInBounds_eq_of_size_le (Nat.not_lt.mp made)]
            at member
          exact held.operands member
      · rw [operands_setOperands_of_ne state same] at member
        exact held.operands member }

theorem bind (scope : ScopeId) (name : String) {binding : Binding} (short : binding.longest ≤ longest) :
    (state.bind scope name binding).CodesUpTo longest :=
  { held with
    bindings := by
      intro other wanted found present
      rcases bindings_bind present with rfl | before
      · exact short
      · exact held.bindings before }

theorem bindAll (scope : ScopeId) (names : List String) {values : List Value}
    (short : ∀ value ∈ values, value.longest ≤ longest) :
    (state.bindAll scope names values).CodesUpTo longest := by
  induction names generalizing values state with
  | nil => exact held
  | cons name names ih =>
      cases values with
      | nil => exact held
      | cons value values =>
          have first : Binding.longest (.value value) ≤ longest := short value (by simp)
          exact ih (held.bind scope name first) fun other member => short other (by simp [member])

theorem newScope (parent : Option ScopeId) :
    { state with scopes := state.scopes.push ⟨[], parent⟩ }.CodesUpTo longest :=
  { held with
    bindings := by
      intro scope name binding present
      simp only [State.scope, Array.getElem?_push] at present
      split at present
      · cases present
      · exact held.bindings present }

theorem newStack : { state with operandStacks := state.operandStacks.push [] }.CodesUpTo longest :=
  { held with
    operands := by
      intro stack value member
      rw [operands_push_nil] at member
      exact held.operands member }

theorem withFrame (parent : Option ScopeId) : (state.withFrame parent).CodesUpTo longest :=
  (held.newScope parent).newStack

theorem newPromise (scope : ScopeId) {body : List Step} (short : codeLongest body ≤ longest) :
    { state with promises := state.promises.push (.pending scope body) }.CodesUpTo longest :=
  { held with
    bodies := by
      intro id
      rw [promise_push]
      split
      · exact short
      · exact held.bodies
    values := by
      intro id value present
      rw [promise_push] at present
      split at present
      · cases present
      · exact held.values present }

theorem resolve (id : PromiseId) {value : Value} (short : value.longest ≤ longest) :
    (state.resolve id value).CodesUpTo longest :=
  { held with
    bodies := by
      intro other
      rw [promise_resolve]
      split
      · exact Nat.zero_le _
      · exact held.bodies
    values := by
      intro other found present
      rw [promise_resolve] at present
      split at present
      · cases present
        exact short
      · exact held.values present }

theorem lookup {scope : ScopeId} {name : String} {binding : Binding}
    (found : state.lookup? scope name = some binding) : binding.longest ≤ longest := by
  rw [State.lookup?, Option.bind_eq_some_iff] at found
  obtain ⟨_, _, bound⟩ := found
  exact held.bindings bound

end State.CodesUpTo

namespace Run

variable {α β : Type} {longest : Nat} {run : Run α} {state : State}

/-- A run after which a state still holds no code longer than given, and whose result is good. -/
def Stays (longest : Nat) (good : α → Prop) (run : Run α) (state : State) : Prop :=
  (run.after state).CodesUpTo longest ∧ ∀ result final, run state = .ok result final → good result

theorem stays_of_ok {good : α → Prop} {result : α} {final : State} (ran : run state = .ok result final)
    (held : final.CodesUpTo longest) (fine : good result) : run.Stays longest good state := by
  refine ⟨by rwa [after_of_ok ran], fun other last again => ?_⟩
  cases ran.symm.trans again
  exact fine

theorem stays_of_error {good : α → Prop} {failure : Failure} {final : State}
    (failed : run state = .error failure final) (held : final.CodesUpTo longest) :
    run.Stays longest good state := by
  refine ⟨by rwa [after_of_error failed], fun other last again => ?_⟩
  cases failed.symm.trans again

theorem stays_of_eq {good : α → Prop} {other : Run α} (same : run state = other state)
    (stays : other.Stays longest good state) : run.Stays longest good state := by
  rw [Stays, after, same, ← after]
  exact stays

theorem stays_of_reads (reads : Reads run) (held : state.CodesUpTo longest) :
    run.Stays longest (fun _ => True) state :=
  ⟨by rwa [reads state], fun _ _ _ => trivial⟩

theorem Stays.of_ok {good : α → Prop} (stays : run.Stays longest good state) {result : α} {final : State}
    (ran : run state = .ok result final) : final.CodesUpTo longest ∧ good result := by
  obtain ⟨held, results⟩ := stays
  rw [after_of_ok ran] at held
  exact ⟨held, results result final ran⟩

theorem Stays.bind {good : α → Prop} {fine : β → Prop} {next : α → Run β}
    (first : run.Stays longest good state)
    (rest : ∀ result middle, run state = .ok result middle → good result → middle.CodesUpTo longest →
      (next result).Stays longest fine middle) : (run >>= next).Stays longest fine state := by
  obtain ⟨held, results⟩ := first
  cases outcome : run state with
  | ok result middle =>
      rw [after_of_ok outcome] at held
      have later := rest result middle outcome (results _ _ outcome) held
      rw [Stays, after_bind_of_ok outcome, bind_of_ok outcome]
      exact later
  | error failure middle =>
      rw [after_of_error outcome] at held
      exact stays_of_error (bind_of_error outcome) held

end Run

section Operations

variable {longest : Nat} {state : State} (held : state.CodesUpTo longest)
include held

theorem StackId.stays_push (stack : StackId) {value : Value} (short : value.longest ≤ longest) :
    (stack.push value).Stays longest (fun _ => True) state := by
  refine Run.stays_of_ok (stack.push_apply state value) (held.setOperands stack ?_) trivial
  rintro other (_ | ⟨_, member⟩)
  · exact short
  · exact held.operands member

theorem StackId.stays_pop (stack : StackId) :
    stack.pop.Stays longest (fun value => value.longest ≤ longest) state := by
  cases present : state.operands stack with
  | nil => exact Run.stays_of_error (stack.pop_of_nil state present) held
  | cons value rest =>
      have short (other : Value) (member : other ∈ value :: rest) : other.longest ≤ longest :=
        held.operands (present ▸ member)
      refine Run.stays_of_ok (stack.pop_of_cons state present) ?_ (short value (by simp))
      exact held.setOperands stack fun other member => short other (by simp [member])

theorem StackId.stays_popMany (stack : StackId) (count : Int) :
    (stack.popMany count).Stays longest (fun _ => True) state := by
  have taken := stack.popMany_apply state count
  by_cases short : ((state.operands stack).length : Int) < count
  · rw [if_pos short] at taken
    exact Run.stays_of_error taken held
  · rw [if_neg short] at taken
    refine Run.stays_of_ok taken (held.setOperands stack fun value member => ?_) trivial
    exact held.operands (List.mem_of_mem_drop member)

theorem stays_soleResult (stack : StackId) (failure : Nat → Failure) :
    (soleResult stack failure).Stays longest (fun value => value.longest ≤ longest) state := by
  by_cases alone : (state.operands stack).length = 1
  · obtain ⟨value, only⟩ := List.length_eq_one_iff.mp alone
    refine Run.stays_of_ok (soleResult_of_one only) (held.setOperands stack (by simp)) ?_
    exact held.operands (by rw [only]; exact List.mem_singleton_self value)
  · exact Run.stays_of_error (soleResult_of_ne_one alone failure) held

theorem DomainId.stays_create (domain : DomainId) (tag : Tag) (payload : Payload) :
    (domain.create tag payload).Stays longest (fun value => value.payload = payload) state := by
  have created := domain.create_apply tag payload state
  split at created
  · exact Run.stays_of_error created held
  · split at created
    · exact Run.stays_of_ok created { held with } rfl
    · exact Run.stays_of_error created held

theorem Value.stays_expect (value : Value) (tag : Tag) (description : String) :
    (value.expect tag description).Stays longest (fun payload => payload = value.payload) state := by
  by_cases same : value.tag = tag
  · exact Run.stays_of_ok (value.expect_of_tag description same) held rfl
  · obtain ⟨failure, _, failed⟩ := @Value.expect_of_ne value tag state description same
    exact Run.stays_of_error failed held

theorem ScopeId.stays_lookup (scope : ScopeId) (name : String) :
    (scope.lookup name).Stays longest (fun binding => binding.longest ≤ longest) state := by
  have found := scope.lookup_apply name state
  cases bound : state.lookup? scope name with
  | none =>
      rw [bound] at found
      exact Run.stays_of_error found held
  | some binding =>
      rw [bound] at found
      exact Run.stays_of_ok found held (held.lookup bound)

theorem Binding.stays_callee (binding : Binding) (name : String) (short : binding.longest ≤ longest) :
    (binding.callee name).Stays longest (fun target => target.longest ≤ longest) state := by
  cases binding with
  | callable target => exact Run.stays_of_ok rfl held short
  | value bound =>
      rw [callee]
      split
      next same =>
        rw [Binding.longest, bound.longest_eq, same] at short
        exact Run.stays_of_ok rfl held short
      next =>
        refine (Run.stays_of_reads (bound.domain.reads_typeName bound.tag) held).bind fun _ _ _ _ held => ?_
        exact Run.stays_of_error rfl held

theorem stays_enterClosure (scope : ScopeId) (parameters : List String) (frame : Frame) :
    (enterClosure scope parameters frame).Stays longest (fun _ => True) state := by
  have entered := enterClosure_apply scope parameters frame state
  split at entered
  · exact Run.stays_of_error entered held
  · split at entered
    · exact Run.stays_of_error entered held
    · refine Run.stays_of_ok entered ?_ trivial
      have taken : (state.setOperands frame.stack
          ((state.operands frame.stack).drop parameters.length)).CodesUpTo longest :=
        held.setOperands frame.stack fun value member => held.operands (List.mem_of_mem_drop member)
      refine (taken.withFrame (some scope)).bindAll _ _ fun value member => ?_
      exact held.operands (List.mem_of_mem_take (List.mem_reverse.mp member))

theorem stays_enterPromise (scope : Option ScopeId) (frame : Frame) :
    (enterPromise scope frame).Stays longest (fun _ => True) state := by
  have entered := enterPromise_apply scope frame state
  split at entered
  · exact Run.stays_of_error entered held
  · exact Run.stays_of_ok entered (held.withFrame scope) trivial

theorem stays_record (event : Event) : (Run.record event).Stays longest (fun _ => True) state :=
  Run.stays_of_ok rfl { held with } trivial

theorem stays_newPromise (scope : ScopeId) {body : List Step} (short : codeLongest body ≤ longest) :
    (Run.newPromise scope body).Stays longest (fun _ => True) state :=
  Run.stays_of_ok rfl (held.newPromise scope short) trivial

theorem stays_runMakeClosure (domain : DomainId) (frame : Frame) :
    (runMakeClosure domain frame).Stays longest (fun _ => True) state := by
  rw [runMakeClosure]
  refine (frame.stack.stays_pop held).bind fun code _ _ short held => ?_
  refine (code.stays_expect held _ _).bind fun quoted _ _ same held => ?_
  refine (frame.stack.stays_pop held).bind fun names _ _ _ held => ?_
  refine (Run.stays_of_reads (domain.reads_parameterNames names) held).bind fun _ _ _ _ held => ?_
  refine (stays_record held _).bind fun _ _ _ _ held => ?_
  refine (domain.stays_create held _ _).bind fun closure _ _ made held => ?_
  refine frame.stack.stays_push held ?_
  rw [closure.longest_eq, made, same]
  exact Nat.le_trans code.codeLongest_steps_le short

theorem stays_runDelay (frame : Frame) : (runDelay frame).Stays longest (fun _ => True) state := by
  rw [runDelay]
  refine (frame.stack.stays_pop held).bind fun argument _ _ short held => ?_
  refine (argument.stays_expect held _ _).bind fun code _ _ same held => ?_
  refine (stays_newPromise held _ ?_).bind fun promise _ _ _ held => ?_
  · rw [same]
    exact Nat.le_trans argument.codeLongest_steps_le short
  · refine (argument.domain.stays_create held _ _).bind fun value _ _ made held => ?_
    refine frame.stack.stays_push held ?_
    rw [value.longest_eq, made]
    exact Nat.zero_le _

theorem stays_runIsPromise (frame : Frame) :
    (runIsPromise frame).Stays longest (fun _ => True) state := by
  rw [runIsPromise]
  refine (frame.stack.stays_pop held).bind fun value _ _ _ held => ?_
  refine (value.domain.stays_create held _ _).bind fun answer _ _ made held => ?_
  refine frame.stack.stays_push held ?_
  rw [answer.longest_eq, made]
  exact Nat.zero_le _

end Operations

def Action.CodesUpTo (longest : Nat) (action : Action) (_ : State) : Prop :=
  match action with
  | .push _ value => value.longest ≤ longest
  | .bind _ _ binding => binding.longest ≤ longest
  | .rebind _ _ binding => binding.longest ≤ longest
  | .call target _ _ _ => target.longest ≤ longest
  | .run code _ => codeLongest code ≤ longest
  | .newPromise _ body => codeLongest body ≤ longest
  | _ => True

theorem Action.Direct.stays {longest : Nat} {action : Action} {state : State} (direct : action.Direct)
    (held : state.CodesUpTo longest) (short : action.CodesUpTo longest state) (machine : Machine) :
    (action.perform machine).Stays longest (fun _ => True) state := by
  cases action with
  | pop stack =>
      obtain ⟨kept, _⟩ := stack.stays_pop held
      exact ⟨kept, fun _ _ _ => trivial⟩
  | popMany stack count => exact stack.stays_popMany held count
  | push stack value => exact stack.stays_push held short
  | bind scope name binding => exact Run.stays_of_ok rfl (held.bind scope name short) trivial
  | rebind scope name binding =>
      rw [perform, ScopeId.rebind]
      refine (Run.stays_of_reads Run.reads_get held).bind fun reached _ got _ held => ?_
      split
      · exact Run.stays_of_ok rfl (held.bind _ name short) trivial
      · exact Run.stays_of_error rfl held
  | call target frame args returns => cases direct
  | run code frame => cases direct
  | create domain tag payload =>
      obtain ⟨kept, _⟩ := domain.stays_create held tag payload
      exact ⟨kept, fun _ _ _ => trivial⟩
  | nullOf domain => exact Run.stays_of_reads domain.reads_null held
  | expect value tag description => exact Run.stays_of_reads (value.reads_expect tag description) held
  | newScope parent => exact Run.stays_of_ok rfl (held.newScope parent) trivial
  | newStack => exact Run.stays_of_ok rfl held.newStack trivial
  | newPromise scope body => exact Run.stays_of_ok rfl (held.newPromise scope short) trivial
  | count host => exact Run.stays_of_ok rfl { held with } trivial
  | keep host frame => exact Run.stays_of_ok rfl { held with } trivial
  | kept host => exact Run.stays_of_ok rfl held trivial
  | valueText value => exact Run.stays_of_reads (Run.reads_show fun state => state.valueText value) held
  | scopeText scope => exact Run.stays_of_reads (Run.reads_show fun state => state.scopeText scope) held

namespace Moment

def CodesUpTo (longest : Nat) : Moment → Prop
  | ⟨_, .call target _ _ _, _⟩ => target.longest ≤ longest
  | ⟨_, .body target _ _ _, _⟩ => target.longest ≤ longest
  | ⟨_, .step _ step, _⟩ => step.longest ≤ longest
  | ⟨_, .steps _ code, _⟩ => codeLongest code ≤ longest
  | ⟨_, .program _, _⟩ => True
  | ⟨_, .action _, _⟩ => True

section Stays

variable {longest : Nat} {whole part inner : Moment}

theorem codeLongest_rest {step : Step} {rest : List Step} (short : codeLongest (step :: rest) ≤ longest) :
    step.longest ≤ longest ∧ codeLongest rest ≤ longest := by
  obtain ⟨length, constants⟩ := codeLongest_le.mp short
  rw [longestIn, Nat.max_le] at constants
  exact ⟨constants.1, codeLongest_le.mpr ⟨Nat.le_of_succ_le length, constants.2⟩⟩

theorem Continues.stays_first {first second : Moment} (continues : whole.Continues first second)
    (held : whole.state.CodesUpTo longest) (short : whole.CodesUpTo longest) :
    first.state.CodesUpTo longest ∧ first.CodesUpTo longest := by
  cases continues with
  | rest executed => exact ⟨held, (codeLongest_rest short).1⟩
  | next performed => exact ⟨held, trivial⟩
  | goesOn attempted => exact ⟨held, trivial⟩

theorem Starts.stays (keeps : whole.Keeps (Action.CodesUpTo longest))
    (held : whole.state.CodesUpTo longest) (short : whole.CodesUpTo longest)
    (earlier : ∀ first, whole.Continues first part → first.after.CodesUpTo longest)
    (starts : whole.Starts part) : part.state.CodesUpTo longest ∧ part.CodesUpTo longest := by
  cases starts with
  | body admitted => exact ⟨held, short⟩
  | closure entered =>
      exact ⟨((stays_enterClosure held _ _ _).of_ok entered).1, short⟩
  | promise pending entered =>
      exact ⟨((stays_enterPromise held _ _).of_ok entered).1, held.bodies⟩
  | force popped expected =>
      obtain ⟨held, short⟩ := (StackId.stays_pop held _).of_ok popped
      have same := ((Value.stays_expect held _ _ _).of_ok expected).2
      rw [Value.longest_eq, ← same] at short
      exact ⟨held, short⟩
  | host => exact ⟨held, trivial⟩
  | got bound => exact ⟨held, held.lookup bound⟩
  | named bound resolved =>
      exact (Binding.stays_callee held _ _ (held.lookup bound)).of_ok resolved
  | first => exact ⟨held, (codeLongest_rest short).1⟩
  | rest executed =>
      have kept := earlier _ (.rest executed)
      rw [after, Activity.run, Run.after_of_ok executed] at kept
      exact ⟨kept, (codeLongest_rest short).2⟩
  | asked =>
      obtain ⟨_, _, brings⟩ := keeps.minds
      exact ⟨held, brings⟩
  | ran =>
      obtain ⟨_, _, brings⟩ := keeps.minds
      exact ⟨held, brings⟩
  | acts => exact ⟨held, trivial⟩
  | attempts => exact ⟨held, trivial⟩
  | next performed =>
      have kept := earlier _ (.next performed)
      rw [after_action, Run.after_of_ok performed] at kept
      exact ⟨kept, trivial⟩
  | goesOn attempted =>
      have kept := earlier _ (.goesOn attempted)
      rw [after_action, ← Run.after_outcome, Run.after_of_ok attempted] at kept
      exact ⟨kept, trivial⟩

end Stays

section Bodies

variable {longest budget : Nat} {frame : Frame} {args returns : Option Int} {state : State}
  (held : state.CodesUpTo longest)
include held

theorem within_stays {inner : Frame} {code : List Step}
    (nested : ∀ smaller, budget = smaller + 1 →
      (after ⟨smaller, .steps inner code, state⟩).CodesUpTo longest) :
    ((Machine.within budget).run inner code).Stays longest (fun _ => True) state := by
  cases budget with
  | zero => exact Run.stays_of_error rfl held
  | succ smaller => exact ⟨nested smaller rfl, fun _ _ _ => trivial⟩

theorem stays_closure {scope : ScopeId} {code : List Step} {parameters : List String}
    (nested : ∀ part, Starts ⟨budget, .body (.closure scope code parameters) frame args returns, state⟩
      part → part.after.CodesUpTo longest) :
    (runClosure (.within budget) scope code parameters frame).Stays longest (fun _ => True) state := by
  rw [runClosure]
  refine (stays_enterClosure held _ _ _).bind fun inner start entered _ held => ?_
  refine (within_stays held fun smaller same => ?_).bind fun _ _ _ _ held => ?_
  · subst same
    exact nested _ (.closure entered)
  · exact (stays_soleResult held _ _).bind fun result _ _ short held => frame.stack.stays_push held short

theorem stays_store {id : PromiseId} {value : Value} (short : value.longest ≤ longest) :
    Run.Stays longest (fun _ => True)
      (do modify fun state => state.resolve id value
          Run.record (.promiseResolved id ((← get).valueText value))
          frame.stack.push value) state := by
  have stored : Run.Stays longest (fun _ => True)
      (modify fun state => state.resolve id value : Run Unit) state :=
    Run.stays_of_ok rfl (held.resolve id short) trivial
  refine stored.bind fun _ _ _ _ held => ?_
  refine (Run.stays_of_reads Run.reads_get held).bind fun _ _ _ _ held => ?_
  exact (stays_record held _).bind fun _ _ _ _ held => frame.stack.stays_push held short

theorem stays_promise {id : PromiseId}
    (nested : ∀ part, Starts ⟨budget, .body (.promise id) frame args returns, state⟩ part →
      part.after.CodesUpTo longest) :
    (runPromise (.within budget) id frame).Stays longest (fun _ => True) state := by
  cases present : (state.promise id).value with
  | some value =>
      exact Run.stays_of_eq (runPromise_of_value present) (frame.stack.stays_push held (held.values present))
  | none =>
      have computed : ((state.promise id).compute (.within budget) frame).Stays longest
          (fun value => value.longest ≤ longest) state := by
        rw [Promise.compute]
        refine (stays_enterPromise held _ _).bind fun inner start entered _ held => ?_
        refine (within_stays held fun smaller same => ?_).bind fun _ _ _ _ held => ?_
        · subst same
          exact nested _ (.promise present entered)
        · exact stays_soleResult held _ _
      refine Run.stays_of_eq (runPromise_of_pending present) (computed.bind ?_)
      exact fun _ _ _ short held => stays_store held short

theorem stays_force
    (nested : ∀ part, Starts ⟨budget, .body .force frame args returns, state⟩ part →
      part.after.CodesUpTo longest) :
    (runForce (.within budget) frame).Stays longest (fun _ => True) state := by
  rw [runForce]
  refine (frame.stack.stays_pop held).bind fun argument start popped _ held => ?_
  refine (argument.stays_expect held _ _).bind fun payload reached expected _ held => ?_
  have unchanged := (argument.reads_expect _ _).final_of_ok expected
  subst unchanged
  cases payload with
  | callable target =>
      cases budget with
      | zero => exact Run.stays_of_error rfl held
      | succ smaller => exact ⟨nested _ (.force popped expected), fun _ _ _ => trivial⟩
  | _ => exact Run.stays_of_ok rfl held trivial

theorem stays_step {step : Step} (short : step.longest ≤ longest)
    (nested : ∀ part, Starts ⟨budget, .step frame step, state⟩ part → part.after.CodesUpTo longest) :
    (step.execute (Callable.callWithin budget) frame).Stays longest (fun _ => True) state := by
  cases step with
  | push value => exact frame.stack.stays_push held short
  | note text => exact Run.stays_of_ok rfl held trivial
  | get name =>
      refine (frame.scope.stays_lookup held name).bind fun binding middle found bound held => ?_
      obtain ⟨present, unchanged⟩ := ScopeId.lookup_eq_ok found
      subst unchanged
      cases binding with
      | callable target => exact ⟨nested _ (.got present), fun _ _ _ => trivial⟩
      | value value => exact frame.stack.stays_push held bound
  | call name args returns =>
      refine (frame.scope.stays_lookup held name).bind fun binding middle found bound held => ?_
      obtain ⟨present, unchanged⟩ := ScopeId.lookup_eq_ok found
      subst unchanged
      refine (binding.stays_callee held name bound).bind fun target reached resolved _ held => ?_
      have unchanged := (binding.reads_callee name).final_of_ok resolved
      subst unchanged
      exact ⟨nested _ (.named present resolved), fun _ _ _ => trivial⟩

theorem stays_action {action : Action} (short : action.CodesUpTo longest state)
    (nested : ∀ part, Starts ⟨budget, .action action, state⟩ part → part.after.CodesUpTo longest) :
    (action.perform (.within budget)).Stays longest (fun _ => True) state := by
  by_cases direct : action.Direct
  · exact direct.stays held short _
  · cases action with
    | call target frame args returns =>
        cases budget with
        | zero => exact Run.stays_of_error rfl held
        | succ smaller => exact ⟨nested _ .asked, fun _ _ _ => trivial⟩
    | run code frame =>
        refine within_stays held fun smaller same => ?_
        subst same
        exact nested _ .ran
    | _ => exact absurd rfl direct

end Bodies

theorem after_codesUpTo {longest : Nat} (whole : Moment) (keeps : whole.Keeps (Action.CodesUpTo longest))
    (held : whole.state.CodesUpTo longest) (short : whole.CodesUpTo longest) :
    whole.after.CodesUpTo longest := by
  induction whole using Moment.induction with
  | whole whole ih =>
  have earlier (first part : Moment) (continues : whole.Continues first part) :
      first.after.CodesUpTo longest := by
    obtain ⟨begins, brief⟩ := continues.stays_first held short
    exact ih first continues.starts_first (keeps.part continues.starts_first) begins brief
  have nested (part : Moment) (starts : whole.Starts part) : part.after.CodesUpTo longest := by
    obtain ⟨begins, brief⟩ := starts.stays keeps held short fun first => earlier first part
    exact ih part starts (keeps.part starts) begins brief
  obtain ⟨budget, activity, state⟩ := whole
  cases activity with
  | call target frame args returns =>
      by_cases admitted : target.Admits frame args returns state
      · rw [after_call_of_admits admitted]
        exact nested _ (.body admitted)
      · rw [after_call_of_not_admits admitted]
        exact held
  | body target frame args returns =>
      cases target with
      | closure scope code parameters => exact (stays_closure held nested).1
      | promise id => exact (stays_promise held nested).1
      | makeClosure domain => exact (stays_runMakeClosure held domain frame).1
      | delay => exact (stays_runDelay held frame).1
      | force => exact (stays_force held nested).1
      | isPromise => exact (stays_runIsPromise held frame).1
      | host id header =>
          exact nested ⟨budget, .program (state.hostBody id frame args returns), state⟩ .host
  | step frame step => exact (stays_step held short nested).1
  | steps frame code =>
      cases code with
      | nil => exact held
      | cons step rest =>
          have first : (step.execute (Callable.callWithin budget) frame).Stays longest (fun _ => True)
              state := ⟨nested _ .first, fun _ _ _ => trivial⟩
          exact (first.bind fun _ middle executed _ _ =>
            ⟨nested _ (.rest executed), fun _ _ _ => trivial⟩ : Run.Stays longest (fun _ => True) _ _).1
  | program actions =>
      cases actions with
      | done result => exact held
      | fail failure => exact held
      | act action next =>
          have first : (action.perform (.within budget)).Stays longest (fun _ => True) state :=
            ⟨after_action budget action state ▸ nested _ .acts, fun _ _ _ => trivial⟩
          exact (first.bind fun _ middle performed _ _ =>
            ⟨nested _ (.next performed), fun _ _ _ => trivial⟩ : Run.Stays longest (fun _ => True) _ _).1
      | attempt action next =>
          have first : (Run.outcome (action.perform (.within budget))).Stays longest (fun _ => True)
              state := by
            refine ⟨?_, fun _ _ _ => trivial⟩
            rw [Run.after_outcome, ← after_action]
            exact nested _ .attempts
          exact (first.bind fun _ middle attempted _ _ =>
            ⟨nested _ (.goesOn attempted), fun _ _ _ => trivial⟩ : Run.Stays longest (fun _ => True) _ _).1
  | action action =>
      obtain ⟨_, _, brings⟩ := keeps.minds
      rw [after_action]
      exact (stays_action held brings nested).1

theorem Reaches.codesUpTo {longest : Nat} {whole inner : Moment}
    (keeps : whole.Keeps (Action.CodesUpTo longest)) (held : whole.state.CodesUpTo longest)
    (short : whole.CodesUpTo longest) (reached : whole.Reaches inner) : inner.CodesUpTo longest := by
  induction reached with
  | here => exact short
  | inside starts _ ih =>
      obtain ⟨begins, brief⟩ := starts.stays keeps held short fun first continues => by
        obtain ⟨begins, brief⟩ := continues.stays_first held short
        exact first.after_codesUpTo (keeps.part continues.starts_first) begins brief
      exact ih (keeps.part starts) begins brief

/-- No code comes up that is longer than what there was before. -/
theorem codesWithin_of_codesUpTo {longest : Nat} {whole : Moment}
    (keeps : whole.Keeps (Action.CodesUpTo longest)) (held : whole.state.CodesUpTo longest)
    (short : whole.CodesUpTo longest) : whole.CodesWithin longest := by
  intro budget frame code state reached
  have brief : codeLongest code ≤ longest := reached.codesUpTo keeps held short
  exact (codeLongest_le.mp brief).1

end Moment

end LazyStack
