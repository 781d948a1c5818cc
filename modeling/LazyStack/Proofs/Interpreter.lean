import LazyStack.Proofs.Growth
import LazyStack.Proofs.Tree

/-!
The interpreter of trees. It runs the body of a closure or promise as a tree wherever the body is the
code of one. Compiled code does the same as its tree in every respect, as long as the two names that
the forms call mean the built-ins: the calls of the forms leave no trace but their effect.
-/

namespace LazyStack

/-- The trees that code is read as. Every code of a tree is read as some tree with that code. -/
structure Forest (null : Value) where
  tree? : List Step → Option Tree
  sound {code : List Step} {tree : Tree} : tree? code = some tree → tree.Built null ∧ tree.code = code
  complete {tree : Tree} : tree.Built null → (tree? tree.code).isSome

namespace Forest

variable {null : Value} (forest : Forest null) (domain : DomainId)

def run (invoke : Invoke) (frame : Frame) (code : List Step) : Run Unit :=
  match forest.tree? code with
  | some tree => tree.evaluate domain invoke frame
  | none => executeSteps invoke frame code

def machine (invoke : Invoke) : Machine :=
  ⟨invoke, forest.run domain invoke⟩

def callWithin : Nat → Invoke
  | 0 => Callable.callOnce .stopped
  | budget + 1 => Callable.callOnce (forest.machine domain (callWithin budget))

end Forest

def State.Calls (state : State) (scope : ScopeId) (name : String) (target : Callable) : Prop :=
  ∃ binding, state.lookup? scope name = some binding ∧
    binding.callee name state = .ok target state

theorem Binding.callee_of_ok {binding : Binding} {name : String} {target : Callable} {first : State}
    (resolved : binding.callee name first = .ok target first) (second : State) :
    binding.callee name second = .ok target second := by
  cases binding with
  | callable other =>
      cases resolved
      rfl
  | value bound =>
      rcases bound.callee_cases name first with ⟨other, tagged, holds, found⟩ | ⟨_, _, _, refused⟩
      · cases found.symm.trans resolved
        exact Binding.callee_of_callable name second tagged holds
      · cases refused.symm.trans resolved

theorem State.Calls.of_scopes {first second : State} {scope : ScopeId} {name : String} {target : Callable}
    (same : second.scopes = first.scopes) (calls : first.Calls scope name target) :
    second.Calls scope name target := by
  obtain ⟨binding, bound, resolved⟩ := calls
  exact ⟨binding, (State.lookup?_of_scopes same scope name).trans bound, Binding.callee_of_ok resolved second⟩

/-- Wherever a run calls one of the two names of the forms, on a stack that has been made, the name means
the built-in of an environment over the domain. -/
def Moment.FindsBuiltIns (domain : DomainId) (moment : Moment) : Prop :=
  ∀ budget frame name args returns state,
    moment.Reaches ⟨budget, .step frame (.call name args returns), state⟩ →
      (name = closureName → state.HasStack frame.stack ∧
        state.Calls frame.scope closureName (.makeClosure domain)) ∧
      (name = delayName → state.HasStack frame.stack ∧ state.Calls frame.scope delayName .delay)

section Forms

variable {frame : Frame} {state : State}

theorem Step.execute_call_of_bound {invoke : Invoke} {name : String} {args returns : Option Int}
    {binding : Binding} (bound : state.lookup? frame.scope name = some binding) :
    (Step.call name args returns).execute invoke frame state =
      (binding.callee name >>= fun target => invoke target frame args returns) state := by
  have found := ScopeId.lookup_apply frame.scope name state
  rw [bound] at found
  rw [execute, Run.bind_of_ok found]

theorem Step.execute_call {invoke : Invoke} {name : String} {args returns : Option Int}
    {target : Callable} (calls : state.Calls frame.scope name target) :
    (Step.call name args returns).execute invoke frame state = invoke target frame args returns state := by
  obtain ⟨binding, bound, resolved⟩ := calls
  rw [execute_call_of_bound bound, Run.bind_of_ok resolved]

theorem executeSteps_constants (invoke : Invoke) (made : state.HasStack frame.stack)
    (constants : List Value) :
    executeSteps invoke frame (constants.map .push) state =
      .ok () (state.setOperands frame.stack (constants.reverse ++ state.operands frame.stack)) := by
  induction constants generalizing state with
  | nil =>
      rw [List.reverse_nil, List.nil_append, State.setOperands_operands]
      rfl
  | cons constant rest ih =>
      have pushed := frame.stack.push_apply state constant
      rw [List.map_cons, executeSteps, Step.execute, Run.bind_of_ok pushed,
        ih (State.hasStack_setOperands.mpr made),
        State.operands_setOperands_self made, State.setOperands_setOperands, List.reverse_cons,
        List.append_assoc, List.singleton_append]

theorem executeSteps_form (invoke : Invoke) (made : state.HasStack frame.stack) (constants : List Value)
    (name : String) (args returns : Option Int) :
    executeSteps invoke frame (constants.map .push ++ [.call name args returns]) state =
      (Step.call name args returns).execute invoke frame
        (state.setOperands frame.stack (constants.reverse ++ state.operands frame.stack)) := by
  rw [executeSteps_append, Run.bind_of_ok (executeSteps_constants invoke made constants), executeSteps_single]

theorem height_of_push {middle final : State} {value : Value} (made : state.HasStack frame.stack)
    (same : middle.operandStacks = state.operandStacks)
    (pushed : frame.stack.push value middle = .ok () final) :
    (final.operands frame.stack).length = (state.operands frame.stack).length + 1 := by
  have present : middle.HasStack frame.stack := by
    rw [State.HasStack, same]
    exact made
  rw [StackId.push_apply] at pushed
  cases pushed
  rw [State.operands_setOperands_self present, State.operands, same, ← State.operands,
    List.length_cons]

theorem height_of_pushClosure {domain : DomainId} {parameters : List String} {body : List Step}
    {final : State} (made : state.HasStack frame.stack)
    (ran : pushClosure domain frame parameters body state = .ok () final) :
    (final.operands frame.stack).length = (state.operands frame.stack).length + 1 := by
  obtain ⟨_, logged, recorded, rest⟩ := Run.bind_eq_ok.mp ran
  cases recorded
  obtain ⟨closure, middle, created, pushed⟩ := Run.bind_eq_ok.mp rest
  have same : middle.operandStacks = state.operandStacks := by
    rw [(domain.create_eq_ok created).2]
    rfl
  exact height_of_push made same pushed

theorem height_of_pushPromise {domain : DomainId} {body : List Step} {final : State}
    (made : state.HasStack frame.stack) (ran : pushPromise domain frame body state = .ok () final) :
    (final.operands frame.stack).length = (state.operands frame.stack).length + 1 := by
  obtain ⟨promise, middle, added, rest⟩ := Run.bind_eq_ok.mp ran
  cases added
  obtain ⟨value, last, created, pushed⟩ := Run.bind_eq_ok.mp rest
  have same : last.operandStacks = state.operandStacks := by
    rw [(domain.create_eq_ok created).2]
  exact height_of_push made same pushed

theorem expect_quotedCode (domain : DomainId) (code : List Step) (identity : Nat)
    (description : String) :
    (quotedCode domain code identity).expect .code description state = .ok (.code code) state :=
  Value.expect_of_tag _ _ rfl

section MakeClosure

variable {domain : DomainId} {quoted list : Value} {above rest : Operands}

theorem runMakeClosure_of_code (operands : state.operands frame.stack = quoted :: list :: rest)
    (code : quoted.tag = .code) :
    runMakeClosure domain frame state =
      (domain.parameterNames list >>= fun names => pushClosure domain frame names quoted.payload.steps)
        (state.setOperands frame.stack rest) := by
  have made : state.HasStack frame.stack := State.hasStack_of_operands (by simp [operands])
  have second := frame.stack.pop_of_cons _ (State.operands_setOperands_self made (list :: rest))
  rw [State.setOperands_setOperands] at second
  rw [runMakeClosure, Run.bind_of_ok (frame.stack.pop_of_cons state operands),
    Run.bind_of_ok (quoted.expect_of_tag _ code), Run.bind_of_ok second]
  rfl

theorem runMakeClosure_of_ne_code (domain : DomainId) (operands : state.operands frame.stack = quoted :: above)
    (other : quoted.tag ≠ .code) :
    ∃ failure, failure.Refuses (state.valueText quoted) ∧
      runMakeClosure domain frame state = .error failure (state.setOperands frame.stack above) := by
  have words : (state.setOperands frame.stack above).valueText = state.valueText :=
    State.valueText_of_same rfl rfl
  obtain ⟨failure, refuses, refused⟩ := quoted.expect_of_ne "second argument of 'closure'" other
  refine ⟨failure, words ▸ refuses, ?_⟩
  rw [runMakeClosure, Run.bind_of_ok (frame.stack.pop_of_cons state operands)]
  exact Run.bind_of_error refused

theorem callOnce_makeClosure_eq_body {machine : Machine} {args returns : Option Int}
    (accepted : Signature.Accepts ⟨2, 1⟩ args returns)
    (operands : state.operands frame.stack = quoted :: list :: rest) :
    Callable.callOnce machine (.makeClosure domain) frame args returns state = runMakeClosure domain frame state := by
  have made : state.HasStack frame.stack := State.hasStack_of_operands (by simp [operands])
  refine Callable.callOnce_eq_body (Callable.admits_of_accepts rfl accepted ?_) ?_
  · rw [operands, List.length_cons, List.length_cons]
    dsimp only
    omega
  · intro final ran signature declared
    cases declared
    have body : runMakeClosure domain frame state = .ok () final := ran
    by_cases code : quoted.tag = .code
    · rw [runMakeClosure_of_code operands code] at body
      obtain ⟨names, middle, named, pushed⟩ := Run.bind_eq_ok.mp body
      have unchanged := (domain.reads_parameterNames list).final_of_ok named
      subst unchanged
      rw [height_of_pushClosure (State.hasStack_setOperands.mpr made) pushed, operands,
        State.operands_setOperands_self made, List.length_cons, List.length_cons]
      dsimp only
      omega
    · obtain ⟨failure, _, refused⟩ := runMakeClosure_of_ne_code domain operands code
      cases refused.symm.trans body

end MakeClosure

theorem callOnce_makeClosure {machine : Machine} {domain quoter : DomainId} {list : Value}
    {code : List Step} {identity : Nat} (made : state.HasStack frame.stack) :
    Callable.callOnce machine (.makeClosure domain) frame (some 2) (some 1)
        (state.setOperands frame.stack
          (quotedCode quoter code identity :: list :: state.operands frame.stack)) =
      (domain.parameterNames list >>= fun names => pushClosure domain frame names code) state := by
  have operands := State.operands_setOperands_self made
    (quotedCode quoter code identity :: list :: state.operands frame.stack)
  rw [callOnce_makeClosure_eq_body (by simp [Signature.Accepts]) operands, runMakeClosure_of_code operands rfl,
    State.setOperands_setOperands, State.setOperands_operands]
  rfl

theorem callOnce_delay {machine : Machine} {quoter : DomainId} {code : List Step} {identity : Nat}
    (made : state.HasStack frame.stack) :
    Callable.callOnce machine .delay frame (some 1) (some 1)
        (state.setOperands frame.stack
          (quotedCode quoter code identity :: state.operands frame.stack)) =
      pushPromise quoter frame code state := by
  have operands := State.operands_setOperands_self made
    (quotedCode quoter code identity :: state.operands frame.stack)
  have popped := frame.stack.pop_of_cons _ operands
  rw [State.setOperands_setOperands, State.setOperands_operands] at popped
  have body : Callable.delay.runBody machine frame (some 1) (some 1)
      (state.setOperands frame.stack
        (quotedCode quoter code identity :: state.operands frame.stack)) =
      pushPromise quoter frame code state := by
    rw [Callable.runBody, runDelay, Run.bind_of_ok popped,
      Run.bind_of_ok (expect_quotedCode quoter code identity _)]
    rfl
  rw [Callable.callOnce_eq_body, body]
  · intro signature declared
    cases declared
    refine ⟨by simp [Signature.Accepts], ?_⟩
    rw [operands, List.length_cons]
    dsimp only
    omega
  · intro final ran signature declared
    cases declared
    rw [body] at ran
    rw [operands, height_of_pushPromise made ran, List.length_cons]
    dsimp only
    omega

end Forms

section Forms

variable {domain quoter : DomainId} {budget identity : Nat} {frame : Frame} {state : State} {body : Tree}

theorem executeSteps_makeClosure_of_calls {name : String} {list : Value} {code : List Step}
    (made : state.HasStack frame.stack)
    (calls : ∀ pushed, executeSteps (Callable.callWithin budget) frame
      [.push list, .push (quotedCode quoter code identity)] state = .ok () pushed →
        pushed.Calls frame.scope name (.makeClosure domain)) :
    executeSteps (Callable.callWithin budget) frame
        [.push list, .push (quotedCode quoter code identity), .call name (some 2) (some 1)] state =
      (domain.parameterNames list >>= fun names => pushClosure domain frame names code) state := by
  have pushed := executeSteps_constants (Callable.callWithin budget) made
    [list, quotedCode quoter code identity]
  refine (executeSteps_form (Callable.callWithin budget) made [list, quotedCode quoter code identity]
    name (some 2) (some 1)).trans ?_
  rw [Step.execute_call (calls _ pushed), Callable.callWithin_eq]
  exact callOnce_makeClosure made

theorem executeSteps_lambda_of_calls {null parameterList : Value} {parameters : List String}
    (made : state.HasStack frame.stack) (lists : Value.Lists null parameters parameterList)
    (tagged : null.tag = .null) (own : (state.domain domain).null = null)
    (calls : ∀ pushed, executeSteps (Callable.callWithin budget) frame
      [.push parameterList, .push (quotedCode quoter body.code identity)] state = .ok () pushed →
        pushed.Calls frame.scope closureName (.makeClosure domain)) :
    executeSteps (Callable.callWithin budget) frame
        (Tree.lambda parameters parameterList quoter body identity).code state =
      pushClosure domain frame parameters body.code state := by
  rw [Tree.code, executeSteps_makeClosure_of_calls made calls,
    Run.bind_of_ok (lists.parameterNames_apply tagged own)]

theorem executeSteps_makePromise_of_calls {name : String} {code : List Step}
    (made : state.HasStack frame.stack)
    (calls : ∀ pushed, executeSteps (Callable.callWithin budget) frame
      [.push (quotedCode quoter code identity)] state = .ok () pushed →
        pushed.Calls frame.scope name .delay) :
    executeSteps (Callable.callWithin budget) frame
        [.push (quotedCode quoter code identity), .call name (some 1) (some 1)] state =
      pushPromise quoter frame code state := by
  have pushed := executeSteps_constants (Callable.callWithin budget) made
    [quotedCode quoter code identity]
  refine (executeSteps_form (Callable.callWithin budget) made [quotedCode quoter code identity]
    name (some 1) (some 1)).trans ?_
  rw [Step.execute_call (calls _ pushed), Callable.callWithin_eq]
  exact callOnce_delay made

theorem executeSteps_delay_of_calls (made : state.HasStack frame.stack)
    (calls : ∀ pushed, executeSteps (Callable.callWithin budget) frame
      [.push (quotedCode quoter body.code identity)] state = .ok () pushed →
        pushed.Calls frame.scope delayName .delay) :
    executeSteps (Callable.callWithin budget) frame (Tree.delay quoter body identity).code state =
      pushPromise quoter frame body.code state :=
  executeSteps_makePromise_of_calls made calls

theorem executeSteps_lambda {null parameterList : Value} {parameters : List String}
    (lists : Value.Lists null parameters parameterList) (tagged : null.tag = .null)
    (own : (state.domain domain).null = null)
    (finds : Moment.FindsBuiltIns domain ⟨budget,
      .steps frame (Tree.lambda parameters parameterList quoter body identity).code, state⟩) :
    executeSteps (Callable.callWithin budget) frame
        (Tree.lambda parameters parameterList quoter body identity).code state =
      pushClosure domain frame parameters body.code state := by
  have found {pushed : State} (ran : executeSteps (Callable.callWithin budget) frame
      [.push parameterList, .push (quotedCode quoter body.code identity)] state = .ok () pushed) :=
    (finds _ _ _ _ _ _ ((Moment.reaches_rest ran).trans (.inside .first (.here _)))).1 rfl
  have made := State.hasStack_setOperands.mp (State.hasStack_setOperands.mp (found rfl).1)
  exact executeSteps_lambda_of_calls made lists tagged own fun _ ran => (found ran).2

theorem executeSteps_delay
    (finds : Moment.FindsBuiltIns domain ⟨budget,
      .steps frame (Tree.delay quoter body identity).code, state⟩) :
    executeSteps (Callable.callWithin budget) frame (Tree.delay quoter body identity).code state =
      pushPromise quoter frame body.code state := by
  have found {pushed : State} (ran : executeSteps (Callable.callWithin budget) frame
      [.push (quotedCode quoter body.code identity)] state = .ok () pushed) :=
    (finds _ _ _ _ _ _ ((Moment.reaches_rest ran).trans (.inside .first (.here _)))).2 rfl
  have made := State.hasStack_setOperands.mp (found rfl).1
  exact executeSteps_delay_of_calls made fun _ ran => (found ran).2

end Forms

namespace Moment.FindsBuiltIns

variable {domain : DomainId} {budget : Nat} {frame : Frame} {state middle : State}

theorem inside {whole part : Moment} (finds : whole.FindsBuiltIns domain)
    (reached : whole.Reaches part) : part.FindsBuiltIns domain :=
  fun _ _ _ _ _ _ nested => finds _ _ _ _ _ _ (reached.trans nested)

theorem part {whole inner : Moment} (finds : whole.FindsBuiltIns domain) (starts : whole.Starts inner) :
    inner.FindsBuiltIns domain :=
  finds.inside (.inside starts (.here inner))

theorem front {first second : List Step}
    (finds : FindsBuiltIns domain ⟨budget, .steps frame (first ++ second), state⟩) :
    FindsBuiltIns domain ⟨budget, .steps frame first, state⟩ :=
  fun _ _ _ _ _ _ reached => finds _ _ _ _ _ _ reached.step_of_append

theorem back {first second : List Step}
    (finds : FindsBuiltIns domain ⟨budget, .steps frame (first ++ second), state⟩)
    (ran : executeSteps (Callable.callWithin budget) frame first state = .ok () middle) :
    FindsBuiltIns domain ⟨budget, .steps frame second, middle⟩ :=
  finds.inside (reaches_rest ran)

end Moment.FindsBuiltIns

section Agreement

variable {null : Value} (forest : Forest null) (domain : DomainId)

def Forest.Agrees (budget : Nat) : Prop :=
  ∀ (target : Callable) (frame : Frame) (args returns : Option Int) (state : State),
    Moment.FindsBuiltIns domain ⟨budget, .call target frame args returns, state⟩ →
    (state.domain domain).null = null →
    Callable.callWithin budget target frame args returns state =
      forest.callWithin domain budget target frame args returns state

variable {forest domain} {budget : Nat} (agrees : forest.Agrees domain budget)
  {frame : Frame} {state : State}
include agrees

theorem step_agrees {step : Step}
    (finds : Moment.FindsBuiltIns domain ⟨budget, .step frame step, state⟩)
    (own : (state.domain domain).null = null) :
    step.execute (Callable.callWithin budget) frame state =
      step.execute (forest.callWithin domain budget) frame state := by
  cases step with
  | push value => rfl
  | note text => rfl
  | get name =>
      refine Run.bind_congr rfl fun binding middle found => ?_
      obtain ⟨bound, unchanged⟩ := ScopeId.lookup_eq_ok found
      subst unchanged
      cases binding with
      | value value => rfl
      | callable target => exact agrees target frame _ _ _ (finds.part (.got bound)) own
  | call name args returns =>
      refine Run.bind_congr rfl fun binding middle found => ?_
      obtain ⟨bound, unchanged⟩ := ScopeId.lookup_eq_ok found
      subst unchanged
      refine Run.bind_congr rfl fun target same resolved => ?_
      have unchanged := (binding.reads_callee name).final_of_ok resolved
      subst unchanged
      exact agrees target frame args returns _ (finds.part (.named bound resolved)) own

theorem steps_agree {code : List Step}
    (finds : Moment.FindsBuiltIns domain ⟨budget, .steps frame code, state⟩)
    (own : (state.domain domain).null = null) :
    executeSteps (Callable.callWithin budget) frame code state =
      executeSteps (forest.callWithin domain budget) frame code state := by
  induction code generalizing state with
  | nil => rfl
  | cons step rest ih =>
      refine Run.bind_congr (step_agrees agrees (finds.part .first) own) fun _ middle executed => ?_
      exact ih (finds.part (.rest executed)) ((State.Grows.of_step executed).null own)

omit agrees

mutual

theorem tree_agrees (agrees : forest.Agrees domain budget) (tagged : null.tag = .null) :
    ∀ (tree : Tree) {frame : Frame} {state : State}, tree.Built null →
    Moment.FindsBuiltIns domain ⟨budget, .steps frame tree.code, state⟩ →
    (state.domain domain).null = null →
    executeSteps (Callable.callWithin budget) frame tree.code state =
      tree.evaluate domain (forest.callWithin domain budget) frame state
  | .value constant, frame, state, _, _, _ => by
      rw [Tree.code, executeSteps_single]
      rfl
  | .get name, frame, state, _, finds, own => by
      rw [Tree.code] at finds ⊢
      rw [executeSteps_single, step_agrees agrees (finds.part .first) own]
      rfl
  | .call name args returns, frame, state, built, finds, own => by
      rw [Tree.code] at finds ⊢
      rw [executeSteps_append]
      have arguments := trees_agree agrees tagged args built finds.front own
      refine Run.bind_congr arguments fun _ middle ran => ?_
      have still := (State.Grows.of_executeSteps ran).null own
      rw [executeSteps_single, step_agrees agrees ((finds.back ran).part .first) still]
  | .group children, frame, state, built, finds, own => trees_agree agrees tagged children built finds own
  | .raw quoter body identity, frame, state, _, _, _ => by
      rw [Tree.code, executeSteps_single]
      rfl
  | .lambda parameters parameterList quoter body identity, frame, state, built, finds, own =>
      executeSteps_lambda built.1 tagged own finds
  | .delay quoter body identity, frame, state, _, finds, _ => executeSteps_delay finds

theorem trees_agree (agrees : forest.Agrees domain budget) (tagged : null.tag = .null) :
    ∀ (trees : List Tree) {frame : Frame} {state : State}, Tree.AllBuilt null trees →
    Moment.FindsBuiltIns domain ⟨budget, .steps frame (Tree.codes trees), state⟩ →
    (state.domain domain).null = null →
    executeSteps (Callable.callWithin budget) frame (Tree.codes trees) state =
      Tree.evaluateAll domain (forest.callWithin domain budget) frame trees state
  | [], frame, state, _, _, _ => rfl
  | tree :: rest, frame, state, built, finds, own => by
      rw [Tree.codes] at finds ⊢
      rw [executeSteps_append]
      have first := tree_agrees agrees tagged tree built.1 finds.front own
      refine Run.bind_congr first fun _ middle ran => ?_
      exact trees_agree agrees tagged rest built.2 (finds.back ran)
        ((State.Grows.of_executeSteps ran).null own)

end

include agrees

theorem code_agrees (tagged : null.tag = .null) {code : List Step}
    (finds : Moment.FindsBuiltIns domain ⟨budget, .steps frame code, state⟩)
    (own : (state.domain domain).null = null) :
    executeSteps (Callable.callWithin budget) frame code state =
      forest.run domain (forest.callWithin domain budget) frame code state := by
  rw [Forest.run]
  cases read : forest.tree? code with
  | some tree =>
      obtain ⟨built, same⟩ := forest.sound read
      subst same
      exact tree_agrees agrees tagged tree built finds own
  | none => exact steps_agree agrees finds own

theorem perform_agrees (tagged : null.tag = .null) {action : Action}
    (finds : Moment.FindsBuiltIns domain ⟨budget + 1, .action action, state⟩)
    (own : (state.domain domain).null = null) :
    action.perform (.within (budget + 1)) state =
      action.perform (forest.machine domain (forest.callWithin domain budget)) state := by
  cases action with
  | call target frame args returns => exact agrees target frame args returns state (finds.part .asked) own
  | run code frame => exact code_agrees agrees tagged (finds.part .ran) own
  | _ => rfl

theorem program_agrees (tagged : null.tag = .null) (actions : Program Unit)
    (finds : Moment.FindsBuiltIns domain ⟨budget + 1, .program actions, state⟩)
    (own : (state.domain domain).null = null) :
    actions.run (.within (budget + 1)) state =
      actions.run (forest.machine domain (forest.callWithin domain budget)) state := by
  induction actions generalizing state with
  | done result => rfl
  | fail failure => rfl
  | act action next ih =>
      have performs := perform_agrees agrees tagged (finds.part .acts) own
      refine Run.bind_congr performs fun reply middle performed => ?_
      have starts : Moment.Starts ⟨budget + 1, .program (.act action next), state⟩
          ⟨budget + 1, .program (next reply), middle⟩ := .next performed
      exact ih reply (finds.part starts) ((State.Grows.of_starts starts).null own)
  | attempt action next ih =>
      have performs := Run.outcome_congr (perform_agrees agrees tagged (finds.part .attempts) own)
      refine Run.bind_congr performs fun outcome middle attempted => ?_
      have starts : Moment.Starts ⟨budget + 1, .program (.attempt action next), state⟩
          ⟨budget + 1, .program (next outcome), middle⟩ := .goesOn attempted
      exact ih outcome (finds.part starts) ((State.Grows.of_starts starts).null own)

theorem body_agrees (tagged : null.tag = .null) {target : Callable} {args returns : Option Int}
    (finds : Moment.FindsBuiltIns domain ⟨budget + 1, .body target frame args returns, state⟩)
    (own : (state.domain domain).null = null) :
    target.runBody (.within (budget + 1)) frame args returns state =
      target.runBody (forest.machine domain (forest.callWithin domain budget)) frame args returns
        state := by
  cases target with
  | closure scope body parameters =>
      refine Run.bind_congr rfl fun inner start entered => ?_
      have grown := (State.Grows.evolution.keeps_enterClosure _ _ _).of_ok entered
      have ran := code_agrees agrees tagged (finds.part (.closure entered)) (grown.null own)
      exact Run.bind_congr ran fun _ _ _ => rfl
  | promise id =>
      rw [Callable.runBody, Callable.runBody, runPromise, runPromise,
        Run.bind_of_ok (Run.get_apply state), Run.bind_of_ok (Run.get_apply state)]
      cases present : (state.promise id).value with
      | some value => rfl
      | none =>
          refine Run.bind_congr ?_ fun _ _ _ => rfl
          refine Run.bind_congr rfl fun inner start entered => ?_
          have grown := (State.Grows.evolution.keeps_enterPromise _ _).of_ok entered
          have ran := code_agrees agrees tagged (finds.part (.promise present entered)) (grown.null own)
          exact Run.bind_congr ran fun _ _ _ => rfl
  | force =>
      refine Run.bind_congr rfl fun argument start popped => ?_
      have grown := (State.Grows.evolution.keeps_pop _).of_ok popped
      refine Run.bind_congr rfl fun payload same expected => ?_
      have unchanged := (argument.reads_expect _ _).final_of_ok expected
      subst unchanged
      cases payload with
      | callable target =>
          exact agrees target frame _ _ _ (finds.part (.force popped expected)) (grown.null own)
      | _ => rfl
  | host id header =>
      refine Run.bind_congr rfl fun reached same got => ?_
      cases got
      exact program_agrees agrees tagged _ (finds.part .host) own
  | makeClosure => rfl
  | delay => rfl
  | isPromise => rfl

omit agrees

theorem Forest.agrees_all (forest : Forest null) (domain : DomainId) (tagged : null.tag = .null)
    (budget : Nat) : forest.Agrees domain budget := by
  induction budget with
  | zero =>
      intro target frame args returns state _ _
      rfl
  | succ budget ih =>
      intro target frame args returns state finds own
      rw [Callable.callWithin_eq, Forest.callWithin]
      refine Callable.callOnce_congr fun admitted => ?_
      exact body_agrees ih tagged (finds.part (.body admitted)) own

end Agreement

/-- Whatever a node built in an environment lowers to is the code of a tree of the node, and running that
code is the same as evaluating the tree, in its results, its failures and all that it changes, under
every reading of code as trees. -/
theorem lowering_preserves_meaning (environment : Environment) (null : Value) (node : Node)
    (built : node.Built environment null) (before after : State) (code : List Step)
    (lowered : node.lower before = .ok code after) :
    ∃ tree, node.HasTree tree ∧ tree.Built null ∧ tree.code = code ∧
      ∀ (forest : Forest null) (budget : Nat) (frame : Frame) (state : State),
        state.OwnsNull environment.domain null →
        Moment.FindsBuiltIns environment.domain ⟨budget, .steps frame code, state⟩ →
        executeSteps (Callable.callWithin budget) frame code state =
          tree.evaluate environment.domain (forest.callWithin environment.domain budget) frame state := by
  obtain ⟨tree, has, treeBuilt, same⟩ := built.exists_tree lowered
  refine ⟨tree, has, treeBuilt, same, ?_⟩
  intro forest budget frame state owns finds
  rw [← same] at finds ⊢
  have agrees := forest.agrees_all environment.domain owns.tagged budget
  exact tree_agrees agrees owns.tagged tree treeBuilt finds owns.own

open Classical in
noncomputable def Forest.full (null : Value) : Forest null where
  tree? code :=
    if present : ∃ tree : Tree, tree.Built null ∧ tree.code = code then some present.choose else none
  sound {code tree} read := by
    split at read
    next present =>
      cases read
      exact present.choose_spec
    next => cases read
  complete {tree} built := by
    have present : ∃ other : Tree, other.Built null ∧ other.code = tree.code := ⟨tree, built, rfl⟩
    rw [dif_pos present]
    rfl

def oneFrame : State :=
  State.through [.addEnvironment none, .addTopFrame ⟨0⟩] (.empty 125)

def firstNull : Value :=
  ⟨⟨0⟩, .null, .null true, 0⟩

def identityNode : Node :=
  .lambda ⟨⟨0⟩, firstNull, closureName⟩ (.get "x") (.get "x")
    ⟨⟨0⟩, .cell, .cell ⟨⟨0⟩, .symbol, .symbol "x", 1⟩ firstNull, 2⟩

def identityCode : List Step :=
  [.push ⟨⟨0⟩, .cell, .cell ⟨⟨0⟩, .symbol, .symbol "x", 1⟩ firstNull, 2⟩,
    .push (quotedCode ⟨0⟩ [.get "x"] 1), .call closureName (some 2) (some 1)]

theorem oneFrame_ownsNull : oneFrame.OwnsNull ⟨0⟩ firstNull :=
  ⟨rfl, rfl, by decide⟩

theorem identityNode_built : identityNode.Built ⟨⟨0⟩, ⟨0⟩⟩ firstNull := by
  have compiled : (Environment.lambdaForm ⟨⟨0⟩, ⟨0⟩⟩ >>= fun form =>
      form.build (.get "x") (.get "x")) oneFrame =
        .ok identityNode { oneFrame with nextIdentity := 3 } := rfl
  exact .lambda (.get "x") oneFrame_ownsNull compiled

theorem identityNode_lower :
    identityNode.lower oneFrame = .ok identityCode { oneFrame with nextIdentity := 2 } :=
  rfl

theorem identityCode_findsBuiltIns :
    Moment.FindsBuiltIns ⟨0⟩ ⟨3, .steps ⟨⟨0⟩, ⟨0⟩, 0⟩ identityCode, oneFrame⟩ := by
  intro budget frame name args returns state reached
  have called := ((reached.of_push (by simp) (by simp)).of_push (by simp) (by simp)).of_single (by simp)
  cases called with
  | here =>
      refine ⟨fun _ => ⟨by decide, _, rfl, rfl⟩, fun same => ?_⟩
      exact absurd same (by decide)
  | inside starts deeper =>
      cases starts with
      | named bound resolved =>
          cases bound
          cases resolved
          cases deeper with
          | inside starts deeper =>
              cases starts with
              | body admitted =>
                  cases deeper with
                  | inside starts _ => cases starts

theorem lowering_preserves_meaning_of_identity :
    ∃ tree, identityNode.HasTree tree ∧ tree.code = identityCode ∧
      executeSteps (Callable.callWithin 3) ⟨⟨0⟩, ⟨0⟩, 0⟩ identityCode oneFrame =
        tree.evaluate ⟨0⟩ ((Forest.full firstNull).callWithin ⟨0⟩ 3) ⟨⟨0⟩, ⟨0⟩, 0⟩ oneFrame := by
  obtain ⟨tree, has, _, same, agrees⟩ := lowering_preserves_meaning ⟨⟨0⟩, ⟨0⟩⟩ firstNull identityNode
    identityNode_built oneFrame _ identityCode identityNode_lower
  exact ⟨tree, has, same, agrees (.full firstNull) 3 _ oneFrame oneFrame_ownsNull identityCode_findsBuiltIns⟩

end LazyStack
