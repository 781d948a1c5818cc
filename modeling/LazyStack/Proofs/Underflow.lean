import LazyStack.Proofs.Balance
import LazyStack.Proofs.Operation

/-!
Compiled programs never underflow. The bodies of closures and promises run on stacks of their own, so
what they leave does not touch the stack of their caller. Calls are balanced under every budget, since
they are if the bodies under the next smaller budget are, and with them all code of well-formed nodes.
-/

namespace LazyStack

structure State.Opened (region : Region) (frame : Frame) (taken : Nat) (inner : Frame)
    (state start : State) : Prop where
  sound : start.Sound region
  inside : inner.Sound region start
  empty : start.operands inner.stack = []
  fresh {stack : StackId} : state.HasStack stack → stack ≠ inner.stack ∧ start.HasStack stack
  top : start.operands frame.stack = (state.operands frame.stack).drop taken
  others {stack : StackId} : state.HasStack stack → stack ≠ frame.stack →
    start.operands stack = state.operands stack

section Opening

variable {region : Region} {frame : Frame} {state : State}

theorem State.Opened.of_nextFrame {below : State} {parent : Option ScopeId} {taken : Nat}
    (sound : below.Sound region) (above : ∀ scope, parent = some scope → region.scopes scope)
    (made : ∀ {stack}, state.HasStack stack → below.HasStack stack) (inside : state.HasStack frame.stack)
    (top : below.operands frame.stack = (state.operands frame.stack).drop taken)
    (others : ∀ {stack}, state.HasStack stack → stack ≠ frame.stack →
      below.operands stack = state.operands stack) (depth : Int) :
    State.Opened region frame taken (below.nextFrame depth) state (below.withFrame parent) where
  sound := sound.withFrame above
  inside := by
    refine ⟨sound.laterScopes (Nat.le_refl _), State.hasStack_withFrame _ _ _, fun member => ?_⟩
    rw [State.operands_withFrame below parent depth] at member
    cases member
  empty := State.operands_withFrame below parent depth
  fresh present := ⟨State.ne_nextFrame_stack _ (made present),
    State.hasStack_withFrame_of_hasStack _ (made present)⟩
  top := by rw [State.operands_withFrame_of_hasStack _ (made inside), top]
  others present apart := by
    rw [State.operands_withFrame_of_hasStack _ (made present), others present apart]

theorem State.Opened.bindAll {taken : Nat} {inner : Frame} {start : State}
    (opened : State.Opened region frame taken inner state start) (scope : ScopeId) (names : List String)
    {values : List Value} (arguments : ∀ value ∈ values, value.Sound region) :
    State.Opened region frame taken inner state (start.bindAll scope names values) := by
  have same (stack : StackId) :
      (start.bindAll scope names values).operands stack = start.operands stack := by
    rw [State.operands, State.operandStacks_bindAll, State.operands]
  have made {stack : StackId} (present : start.HasStack stack) :
      (start.bindAll scope names values).HasStack stack := by
    rw [State.HasStack, State.operandStacks_bindAll]
    exact present
  refine ⟨opened.sound.bindAll scope names arguments, ⟨opened.inside.scope, made opened.inside.made, ?_⟩,
    (same _).trans opened.empty, fun present => ?_, (same _).trans opened.top, fun present apart => ?_⟩
  · intro value member
    rw [same, opened.empty] at member
    cases member
  · exact ⟨(opened.fresh present).1, made (opened.fresh present).2⟩
  · rw [same, opened.others present apart]

theorem enterClosure_ends {scope : ScopeId} {parameters : List String} (sound : state.Sound region)
    (inside : frame.Sound region state) (above : region.scopes scope)
    (present : parameters.length ≤ (state.operands frame.stack).length) :
    (enterClosure scope parameters frame).Ends state fun inner start =>
      State.Opened region frame parameters.length inner state start := by
  rw [Run.Ends, enterClosure_apply]
  by_cases deep : (state.callLimit : Int) < frame.depth + 1
  · rw [if_pos deep]
    intro same
    cases same
  · rw [if_neg deep, if_neg (by omega), State.withArguments, ← State.nextFrame_setOperands]
    refine State.Opened.bindAll (.of_nextFrame (sound.setOperands _ _) ?_ ?_ inside.made ?_ ?_ _) _ _ ?_
    · intro other same
      cases same
      exact above
    · intro stack made
      exact State.hasStack_setOperands.mpr made
    · rw [State.operands_setOperands_self inside.made]
    · intro stack _ apart
      exact State.operands_setOperands_of_ne state (Ne.symm apart) _
    · intro value member
      exact inside.operands (List.mem_of_mem_take (List.mem_reverse.mp member))

theorem enterPromise_ends {scope : Option ScopeId} (sound : state.Sound region)
    (inside : frame.Sound region state) (above : ∀ parent, scope = some parent → region.scopes parent) :
    (enterPromise scope frame).Ends state fun inner start =>
      State.Opened region frame 0 inner state start := by
  rw [Run.Ends, enterPromise_apply]
  by_cases deep : (state.callLimit : Int) < frame.depth + 1
  · rw [if_pos deep]
    intro same
    cases same
  · rw [if_neg deep]
    exact .of_nextFrame sound above id inside.made rfl (fun _ _ => rfl) _

structure State.Closed (region : Region) (inner : Frame) (value : Value) (start final : State) :
    Prop where
  value : value.Sound region
  sound : final.Sound region
  made {stack : StackId} : start.HasStack stack → final.HasStack stack
  others {stack : StackId} : start.HasStack stack → stack ≠ inner.stack →
    final.operands stack = start.operands stack

theorem State.Opened.push {taken : Nat} {inner : Frame} {start final : State} {value : Value}
    (opened : State.Opened region frame taken inner state start)
    (closed : State.Closed region inner value start final) (inside : state.HasStack frame.stack) :
    (frame.stack.push value).Ends final fun _ last => state.Exchanged region frame taken 1 last := by
  obtain ⟨apart, made⟩ := opened.fresh inside
  refine .of_ok rfl ⟨⟨[value], ?_, rfl, ?_⟩, fun present distinct => ?_, closed.sound.setOperands _ _⟩
  · rw [State.operands_setOperands_self (closed.made made), closed.others made apart, opened.top]
    rfl
  · simpa using closed.value
  · rw [State.operands_setOperands_of_ne _ (Ne.symm distinct),
      closed.others (opened.fresh present).2 (opened.fresh present).1, opened.others present distinct]

end Opening

structure Machine.Balanced (region : Region) (machine : Machine) : Prop where
  call : Invoke.Balanced region machine.call
  run (frame : Frame) (code : List Step) (state : State) : CodeSound region code →
    state.Sound region → frame.Sound region state →
    (machine.run frame code).Ends state fun _ final =>
      state.Grows final ∧ ∃ count, state.Exchanged region frame 0 count final

theorem Machine.stopped_balanced (region : Region) : Machine.stopped.Balanced region where
  call _ _ _ _ _ _ _ _ _ := .of_error rfl (by decide)
  run _ _ _ _ _ _ := .of_error rfl (by decide)

theorem Machine.ofCalls_balanced {region : Region} {budget : Nat}
    (balanced : Invoke.Balanced region (Callable.callWithin budget)) :
    (Machine.ofCalls (Callable.callWithin budget)).Balanced region where
  call := balanced
  run frame code state compiled sound inside := by
    obtain ⟨⟨node, before, after, wellFormed, lowered⟩, steps⟩ := compiled
    refine (leaves_of_lower balanced node wellFormed lowered steps frame state sound inside).mono
      fun _ final ran exchanged => ?_
    exact ⟨.of_executeSteps ran, _, exchanged⟩

section Makers

variable {region : Region} {frame : Frame} {state : State} (sound : state.Sound region)
  (inside : frame.Sound region state)
include sound inside

theorem runMakeClosure_ends (domain : DomainId) (present : 2 ≤ (state.operands frame.stack).length) :
    (runMakeClosure domain frame).Ends state fun _ final =>
      state.Exchanged region frame 2 1 final := by
  rw [runMakeClosure]
  refine (pop_ends sound inside (by omega)).bind fun code middle _ popped => ?_
  obtain ⟨codeSound, grown, first⟩ := popped
  refine (code.expect_ends _ _).bind fun payload reached _ expected => ?_
  obtain ⟨same, _, holds⟩ := expected
  subst same holds
  have again := first.keepsFrame grown inside
  have enough : 1 ≤ (reached.operands frame.stack).length := by
    obtain ⟨results, below, count, _⟩ := first.results
    rw [below, List.length_append, List.length_drop]
    omega
  refine (pop_ends first.sound again enough).bind fun list last _ taken => ?_
  obtain ⟨_, further, second⟩ := taken
  refine (domain.parameterNames_ends list).bind fun names reached _ same => ?_
  subst same
  refine Run.Ends.bind (Run.Ends.of_ok rfl rfl :
    (Run.record (.closureCreated names)).Ends _ fun _ final => final = _) fun _ logged _ same => ?_
  subst same
  refine (domain.create_ends _ _).bind fun closure final _ created => ?_
  obtain ⟨same, made, fits⟩ := created
  subst same made
  refine .of_ok rfl ((first.deeper grown second).push ((grown.trans further).hasStack inside.made) rfl
    ((second.sound.record _).bumped _) ?_)
  exact ⟨Payload.isInstance_of_fits fits, inside.scope, codeSound.code⟩

theorem runDelay_ends (present : 1 ≤ (state.operands frame.stack).length) :
    (runDelay frame).Ends state fun _ final => state.Exchanged region frame 1 1 final := by
  rw [runDelay]
  refine (pop_ends sound inside present).bind fun argument middle _ popped => ?_
  obtain ⟨argumentSound, grown, first⟩ := popped
  refine (argument.expect_ends _ _).bind fun payload reached _ expected => ?_
  obtain ⟨same, _, holds⟩ := expected
  subst same holds
  refine Run.Ends.bind (Run.Ends.of_ok rfl ⟨rfl, rfl⟩ :
    (Run.newPromise frame.scope argument.payload.steps).Ends _ fun promise final =>
      promise = ⟨reached.promises.size⟩ ∧ final = _) fun promise kept _ made => ?_
  obtain ⟨fresh, same⟩ := made
  subst fresh same
  refine (argument.domain.create_ends _ _).bind fun value final _ created => ?_
  obtain ⟨same, made, fits⟩ := created
  subst same made
  refine .of_ok rfl (first.push (grown.hasStack inside.made) rfl
    ((first.sound.newPromise inside.scope argumentSound.code).bumped _) ?_)
  exact ⟨Payload.isInstance_of_fits fits, first.sound.laterPromises (Nat.le_refl _)⟩

theorem runIsPromise_ends (present : 1 ≤ (state.operands frame.stack).length) :
    (runIsPromise frame).Ends state fun _ final => state.Exchanged region frame 1 1 final := by
  rw [runIsPromise]
  refine (pop_ends sound inside present).bind fun value middle _ popped => ?_
  obtain ⟨_, grown, first⟩ := popped
  refine (value.domain.create_ends _ _).bind fun answer final _ created => ?_
  obtain ⟨same, made, fits⟩ := created
  subst same made
  exact .of_ok rfl (first.push (grown.hasStack inside.made) rfl (first.sound.bumped _)
    ⟨Payload.isInstance_of_fits fits, trivial⟩)

end Makers

section Bodies

variable {region : Region} {machine : Machine} (balanced : machine.Balanced region)
include balanced

theorem sole_ends {inner : Frame} {code : List Step} {start : State} {failure : Nat → Failure}
    (compiled : CodeSound region code) (sound : start.Sound region) (inside : inner.Sound region start)
    (empty : start.operands inner.stack = []) (sort : ∀ count, (failure count).kind ≠ .stack) :
    (machine.run inner code >>= fun _ => soleResult inner.stack failure).Ends start
      fun value final => State.Closed region inner value start final := by
  refine (balanced.run inner code start compiled sound inside).bind fun _ middle _ ended => ?_
  obtain ⟨grown, count, exchanged⟩ := ended
  obtain ⟨results, same, _, fresh⟩ := exchanged.results
  rw [empty, List.drop_nil, List.append_nil] at same
  by_cases one : results.length = 1
  · obtain ⟨value, alone⟩ := List.length_eq_one_iff.mp one
    rw [alone] at same fresh
    refine .of_ok (soleResult_of_one same) ⟨fresh value (by simp), exchanged.sound.setOperands _ _, ?_, ?_⟩
    · intro stack made
      exact State.hasStack_setOperands.mpr (grown.hasStack made)
    · intro stack made apart
      rw [State.operands_setOperands_of_ne _ (Ne.symm apart), exchanged.others made apart]
  · exact .of_error (soleResult_of_ne_one (by rw [same]; exact one) failure) (sort _)

theorem runClosure_ends {scope : ScopeId} {body : List Step} {parameters : List String} {frame : Frame}
    {state : State} (above : region.scopes scope) (compiled : CodeSound region body)
    (sound : state.Sound region) (inside : frame.Sound region state)
    (present : parameters.length ≤ (state.operands frame.stack).length) :
    (runClosure machine scope body parameters frame).Ends state fun _ final =>
      state.Exchanged region frame parameters.length 1 final := by
  rw [runClosure]
  refine (enterClosure_ends sound inside above present).bind fun inner start _ opened => ?_
  rw [← bind_assoc]
  refine (sole_ends balanced compiled opened.sound opened.inside opened.empty (by rintro _ ⟨⟩)).bind
    fun value final _ closed => ?_
  exact opened.push closed inside.made

theorem runPromise_ends {id : PromiseId} {frame : Frame} {state : State} (held : region.promises id)
    (sound : state.Sound region) (inside : frame.Sound region state) :
    (runPromise machine id frame).Ends state fun _ final =>
      state.Exchanged region frame 0 1 final := by
  have promise := sound.promises held
  rw [runPromise, Run.Ends, Run.bind_of_ok (Run.get_apply state), ← Run.Ends]
  cases present : (state.promise id).value with
  | some value => exact .of_ok rfl (push_exchanges sound inside (promise.value present))
  | none =>
      dsimp only
      rw [Promise.compute, bind_assoc]
      refine (enterPromise_ends sound inside fun _ same => promise.scope same).bind
        fun inner start _ opened => ?_
      refine (sole_ends balanced promise.body opened.sound opened.inside opened.empty
        (by rintro _ ⟨⟩)).bind fun value middle _ closed => ?_
      have stored := { closed with
        sound := (closed.sound.resolve id closed.value).record (.promiseResolved id
          ((middle.resolve id value).valueText value)) }
      exact opened.push stored inside.made

theorem runForce_ends {frame : Frame} {state : State} (sound : state.Sound region)
    (inside : frame.Sound region state) (present : 1 ≤ (state.operands frame.stack).length) :
    (runForce machine frame).Ends state fun _ final => state.Exchanged region frame 1 1 final := by
  rw [runForce]
  refine (pop_ends sound inside present).bind fun argument middle _ popped => ?_
  obtain ⟨argumentSound, grown, first⟩ := popped
  refine (argument.expect_ends _ _).bind fun payload reached _ expected => ?_
  obtain ⟨same, tagged, holds⟩ := expected
  subst same holds
  obtain ⟨target, called, callee⟩ := argumentSound.target tagged
  rw [called]
  refine (balanced.call target frame 0 1 reached callee first.sound (first.keepsFrame grown inside)
    (Nat.zero_le _)).mono fun _ final _ second => ?_
  exact first.deeper grown second

end Bodies

/-- A host that finds its arguments exchanges them for its results, or fails for some other reason than
a want of operands. It may rely on the same of the calls that it makes. -/
def Region.HostsKeepContracts (region : Region) : Prop :=
  ∀ (id : HostId) (header : HostHeader) (signature : Signature), region.hosts id header →
    header.signature = some signature →
    ∀ (budget : Nat) (frame : Frame) (args returns : Option Int) (state : State),
      (Machine.within budget).Balanced region → state.Sound region → frame.Sound region state →
      signature.Accepts args returns →
      signature.args ≤ ((state.operands frame.stack).length : Int) →
      ((state.hostBody id frame args returns).run (.within budget)).Ends state fun _ final =>
        state.Exchanged region frame signature.args.toNat signature.returns final

section Calls

variable {region : Region} (hosts : region.HostsKeepContracts)
include hosts

theorem runBody_ends {budget : Nat} (balanced : (Machine.within budget).Balanced region)
    {target : Callable} {signature : Signature} (declared : target.signature? = some signature)
    {frame : Frame} {args returns : Option Int} {state : State} (callee : target.Sound region)
    (sound : state.Sound region) (inside : frame.Sound region state)
    (accepted : signature.Accepts args returns)
    (present : signature.args ≤ ((state.operands frame.stack).length : Int)) :
    (target.runBody (.within budget) frame args returns).Ends state fun _ final =>
      state.Exchanged region frame signature.args.toNat signature.returns final := by
  cases target with
  | closure scope body parameters =>
      cases declared
      exact runClosure_ends balanced callee.1 callee.2 sound inside (Int.ofNat_le.mp present)
  | promise id =>
      cases declared
      exact runPromise_ends balanced callee sound inside
  | makeClosure domain =>
      cases declared
      exact runMakeClosure_ends sound inside domain (Int.ofNat_le.mp present)
  | delay =>
      cases declared
      exact runDelay_ends sound inside (Int.ofNat_le.mp present)
  | force =>
      cases declared
      exact runForce_ends balanced sound inside (Int.ofNat_le.mp present)
  | isPromise =>
      cases declared
      exact runIsPromise_ends sound inside (Int.ofNat_le.mp present)
  | host id header =>
      exact hosts id header signature callee.1 declared budget frame args returns state balanced sound
        inside accepted present

theorem callOnce_balanced {budget : Nat} (balanced : (Machine.within budget).Balanced region) :
    Invoke.Balanced region (Callable.callOnce (.within budget)) := by
  intro target frame taken left state callee sound inside enough
  obtain ⟨signature, declared⟩ := callee.fixed
  by_cases accepted : signature.Accepts (some taken) (some left)
  · have args := accepted.1 taken rfl
    have returns := accepted.2 left rfl
    have admitted : target.Admits frame (some taken) (some left) state := by
      intro other same
      rw [declared] at same
      cases same
      exact ⟨accepted, by omega⟩
    rw [Run.Ends, Callable.callOnce_of_admits admitted, ← Run.Ends]
    refine (runBody_ends hosts balanced declared callee sound inside accepted (by omega)).bind
      fun _ final _ exchanged => ?_
    rw [declared]
    rw [← args, ← returns, Int.toNat_natCast] at exchanged
    have settled : ((final.operands frame.stack).length : Int) =
        (state.operands frame.stack).length - signature.args + signature.returns := by
      obtain ⟨results, same, count, _⟩ := exchanged.results
      rw [same, List.length_append, List.length_drop]
      omega
    have checked := requireContract_apply target.kind signature (state.operands frame.stack).length
      frame final
    rw [if_pos settled] at checked
    exact .of_ok checked exchanged
  · obtain ⟨failure, sort, failed⟩ := Callable.callOnce_of_not_accepts (.within budget) declared accepted
    exact .of_error failed (by rw [sort]; decide)

theorem callWithin_balanced (budget : Nat) :
    Invoke.Balanced region (Callable.callWithin budget) := by
  induction budget with
  | zero =>
      have balanced : (Machine.within 0).Balanced region := Machine.stopped_balanced region
      exact callOnce_balanced hosts balanced
  | succ budget ih =>
      have balanced : (Machine.within (budget + 1)).Balanced region := Machine.ofCalls_balanced ih
      exact callOnce_balanced hosts balanced

end Calls

/-- In a sound state a well-formed node never fails for want of operands, however deep, and if it
succeeds it leaves as many results as its shape tells above the operands that it found. -/
theorem compiled_node_never_underflows (region : Region) (hosts : region.HostsKeepContracts)
    (node : Node) (wellFormed : node.WellFormed) (constants : node.Everywhere (Node.HoldsSound region))
    (before after : State) (code : List Step) (lowered : node.lower before = .ok code after)
    (budget : Nat) (frame : Frame) (state : State) (sound : state.Sound region)
    (inside : frame.Sound region state) :
    (∀ failure final,
      executeSteps (Callable.callWithin budget) frame code state = .error failure final →
        failure.kind ≠ .stack) ∧
      ∀ final, executeSteps (Callable.callWithin budget) frame code state = .ok () final →
        ∃ results, final.operands frame.stack = results ++ state.operands frame.stack ∧
          (results.length : Int) = node.resultCount := by
  have ends := leaves_of_lower (callWithin_balanced hosts budget) node wellFormed lowered
    (stepsSound_of_lower node wellFormed constants lowered) frame state sound inside
  rw [Run.Ends] at ends
  refine ⟨fun failure final failed => ?_, fun final ran => ?_⟩
  · rw [failed] at ends
    exact ends
  · rw [ran] at ends
    obtain ⟨results, same, count, _⟩ := ends.results
    exact ⟨results, same, count⟩

def doubling : Region :=
  ⟨fun _ => True, fun _ => True, fun id header => id = ⟨0⟩ ∧ header = LibraryHost.dup.header,
    #[LibraryHost.dup.body ⟨0⟩ ⟨0⟩]⟩

theorem doubling_hostsKeepContracts : doubling.HostsKeepContracts := by
  intro id header signature known declared budget frame args returns state _ sound inside _ present
  obtain ⟨same, named⟩ := known
  subst same named
  cases declared
  have body : state.hostBody ⟨0⟩ = LibraryHost.dup.body ⟨0⟩ ⟨0⟩ := by
    rw [State.hostBody, sound.installed]
    rfl
  rw [body]
  refine (pop_ends sound inside (Int.ofNat_le.mp present)).bind fun value middle _ popped => ?_
  obtain ⟨held, grown, first⟩ := popped
  have again := first.keepsFrame grown inside
  have second := push_exchanges first.sound again held
  have more := State.Grows.evolution.operands middle frame.stack (value :: middle.operands frame.stack)
  have third := push_exchanges second.sound (second.keepsFrame more again) held
  exact .of_ok rfl ((first.next grown second (by decide)).next (grown.trans more) third (by decide))

def three : Value :=
  ⟨⟨0⟩, .int, .int 3, 100⟩

def oneOperand : State :=
  State.through
    [.addEnvironment none,
      .addHost ⟨⟨0⟩, ⟨0⟩⟩ "dup" LibraryHost.dup.header fun self => LibraryHost.dup.body ⟨0⟩ self,
      .addTopFrame ⟨0⟩, .act 0 (.perform (.push ⟨0⟩ three))]
    (.empty 125)

def forcedAndDoubled : Node :=
  .call "dup" [.call "force" [.delay "delay" (.value three) ⟨⟨0⟩, .code, .code [.push three], 101⟩] 1] 2

def Run.succeeds {α : Type} (run : Run α) (state : State) : Bool :=
  match run state with
  | .ok _ _ => true
  | .error _ _ => false

theorem Run.exists_of_succeeds {α : Type} {run : Run α} {state : State}
    (succeeded : run.succeeds state = true) : ∃ result final, run state = .ok result final := by
  rw [succeeds] at succeeded
  split at succeeded
  next result final ran => exact ⟨result, final, ran⟩
  next => cases succeeded

theorem compiled_node_never_underflows_when_doubling :
    ∃ code final, forcedAndDoubled.lower oneOperand = .ok code oneOperand ∧
      executeSteps (Callable.callWithin 4) ⟨⟨0⟩, ⟨0⟩, 0⟩ code oneOperand = .ok () final ∧
      ∃ results, final.operands ⟨0⟩ = results ++ [three] ∧ (results.length : Int) = 2 := by
  have held : three.Sound doubling := ⟨by decide, trivial⟩
  have wellFormed : forcedAndDoubled.WellFormed := by
    have body : (Node.value three).IsCodeOf ⟨⟨0⟩, .code, .code [.push three], 101⟩ :=
      ⟨_, _, _, oneOperand, oneOperand, rfl, rfl⟩
    simp [forcedAndDoubled, Node.WellFormed, Node.Everywhere, Node.AllEverywhere, Node.CallsSingles,
      Node.SingleValued, Node.HoldsBody, body]
  have constants : forcedAndDoubled.Everywhere (Node.HoldsSound doubling) := by
    simp [forcedAndDoubled, Node.Everywhere, Node.AllEverywhere, Node.HoldsSound, held]
  have sound : oneOperand.Sound doubling := by
    have global : oneOperand.scopes = #[⟨[("closure", .callable (.makeClosure ⟨0⟩)),
        ("delay", .callable .delay), ("force", .callable .force), ("ispromise", .callable .isPromise),
        ("dup", .callable (.host ⟨0⟩ LibraryHost.dup.header))], none⟩] := rfl
    refine ⟨fun {scope name binding} _ present => ?_, fun _ _ => trivial, fun {id} _ => ?_,
      fun _ => trivial, fun _ => trivial, rfl⟩
    · have member : ∃ entry ∈ oneOperand.scopes, (name, binding) ∈ entry.bindings := by
        rw [State.scope] at present
        cases found : oneOperand.scopes[scope.index]? with
        | none =>
            rw [found] at present
            cases present
        | some entry =>
            rw [found] at present
            exact ⟨entry, Array.mem_of_getElem? found, Table.mem_of_get? present⟩
      rw [global] at member
      simp at member
      rcases member with same | same | same | same | same <;>
        simp [same.2, Binding.Sound, Callable.Sound, doubling, LibraryHost.header]
    · have none : oneOperand.promises = #[] := rfl
      rw [State.promise, none]
      exact ⟨by simp, ⟨compiled_nil, trivial⟩, by simp⟩
  have inside : Frame.Sound doubling oneOperand ⟨⟨0⟩, ⟨0⟩, 0⟩ := by
    refine ⟨trivial, by decide, fun member => ?_⟩
    have top : oneOperand.operands ⟨0⟩ = [three] := rfl
    rw [top, List.mem_singleton] at member
    exact member ▸ held
  have code : ∃ code, forcedAndDoubled.lower oneOperand = .ok code oneOperand ∧
      Run.succeeds (executeSteps (Callable.callWithin 4) ⟨⟨0⟩, ⟨0⟩, 0⟩ code) oneOperand = true :=
    ⟨_, rfl, by decide +kernel⟩
  obtain ⟨code, lowered, succeeded⟩ := code
  obtain ⟨_, final, ran⟩ := Run.exists_of_succeeds succeeded
  refine ⟨code, final, lowered, ran, ?_⟩
  exact (compiled_node_never_underflows doubling doubling_hostsKeepContracts forcedAndDoubled wellFormed
    constants oneOperand oneOperand code lowered 4 ⟨⟨0⟩, ⟨0⟩, 0⟩ oneOperand sound inside).2 final ran

end LazyStack
