import LazyStack.Proofs.Growth
import LazyStack.Proofs.Soundness

/-!
Balance of code. `Run.Ends` says that a run does not fail for want of operands and meets a condition if it
succeeds. If calls exchange their arguments for their results, then the code of a well-formed node
leaves as many values as its shape tells, above the operands that it found.
-/

namespace LazyStack

namespace Run

variable {α β : Type} {run : Run α} {state : State} {post : α → State → Prop}

/-- A run that does not fail for want of operands, and meets a condition if it succeeds. -/
def Ends (run : Run α) (state : State) (post : α → State → Prop) : Prop :=
  match run state with
  | .ok result final => post result final
  | .error failure _ => failure.kind ≠ .stack

theorem Ends.of_ok {result : α} {final : State} (ran : run state = .ok result final)
    (met : post result final) : run.Ends state post := by
  rw [Ends, ran]
  exact met

theorem Ends.of_error {failure : Failure} {final : State} (failed : run state = .error failure final)
    (other : failure.kind ≠ .stack) : run.Ends state post := by
  rw [Ends, failed]
  exact other

theorem Ends.bind {next : α → Run β} {last : β → State → Prop} (first : run.Ends state post)
    (rest : ∀ result middle, run state = .ok result middle → post result middle →
      (next result).Ends middle last) : (run >>= next).Ends state last := by
  rw [Ends] at first
  cases outcome : run state with
  | ok result middle =>
      rw [outcome] at first
      rw [Ends, Run.bind_of_ok outcome]
      exact rest result middle outcome first
  | error failure middle =>
      rw [outcome] at first
      exact .of_error (Run.bind_of_error outcome) first

theorem Ends.mono {last : α → State → Prop} (first : run.Ends state post)
    (stronger : ∀ result final, run state = .ok result final → post result final →
      last result final) : run.Ends state last := by
  rw [Ends] at first ⊢
  cases outcome : run state with
  | ok result final =>
      rw [outcome] at first
      exact stronger result final outcome first
  | error failure final =>
      rw [outcome] at first
      exact first

end Run

theorem Failure.Refuses.kind_ne_stack {α : Type} {failure : Failure} {shown : Written α}
    (refuses : failure.Refuses shown) : failure.kind ≠ .stack := by
  rcases refuses.kind_cases with same | same | same <;> rw [same] <;> decide

section Reads

variable {state : State}

theorem DomainId.typeName_ends (domain : DomainId) (tag : Tag) :
    (domain.typeName tag).Ends state fun _ final => final = state := by
  rw [Run.Ends, typeName_apply, Domain.typeName]
  cases (state.domain domain).names.get? tag with
  | none =>
      intro same
      cases same
  | some name => rfl

theorem Value.expect_ends (value : Value) (tag : Tag) (description : String) :
    (value.expect tag description).Ends state fun payload final =>
      final = state ∧ value.tag = tag ∧ payload = value.payload := by
  by_cases same : value.tag = tag
  · exact .of_ok (value.expect_of_tag description same) ⟨rfl, same, rfl⟩
  · obtain ⟨failure, refuses, failed⟩ := @Value.expect_of_ne value tag state description same
    exact .of_error failed refuses.kind_ne_stack

theorem DomainId.create_ends (domain : DomainId) (tag : Tag) (payload : Payload) :
    (domain.create tag payload).Ends state fun value final =>
      final = { state with nextIdentity := state.nextIdentity + 1 } ∧
        value = ⟨domain, tag, payload, state.nextIdentity⟩ ∧ payload.fits tag := by
  rw [Run.Ends, create_apply]
  cases (state.domain domain).names.get? tag with
  | none =>
      intro same
      cases same
  | some name =>
      dsimp only
      by_cases fits : payload.fits tag
      · rw [if_pos fits]
        exact ⟨rfl, rfl, fits⟩
      · rw [if_neg fits]
        exact (Failure.worded_refuses (.misfit · name) (fun _ => rfl) _).kind_ne_stack

theorem DomainId.parameterNames_ends (domain : DomainId) (value : Value) :
    (domain.parameterNames value).Ends state fun _ final => final = state := by
  have all (elements : List Value) :
      Run.Ends (elements.mapM Value.parameterName) state fun _ final => final = state := by
    induction elements with
    | nil => exact .of_ok rfl rfl
    | cons element rest ih =>
        rw [List.mapM_cons]
        have first : element.parameterName.Ends state fun _ final => final = state := by
          refine Run.Ends.bind (element.expect_ends _ _) fun payload middle _ expected => ?_
          exact .of_ok rfl expected.1
        refine first.bind fun name middle _ same => ?_
        subst same
        refine ih.bind fun names final _ same => ?_
        exact .of_ok rfl same
  rw [parameterNames]
  refine Run.Ends.bind (Run.Ends.of_ok rfl rfl : domain.null.Ends state fun _ final => final = state)
    fun null middle _ same => ?_
  subst same
  split
  · exact .of_ok rfl rfl
  · split
    · refine (all value.elements).bind fun names middle _ same => ?_
      subst same
      split
      · exact .of_ok rfl rfl
      · exact .of_error rfl (Failure.worded_refuses _ (fun _ => rfl) _).kind_ne_stack
    · refine (value.domain.typeName_ends value.tag).bind fun name middle _ same => ?_
      exact .of_error rfl (Failure.worded_refuses _ (fun _ => rfl) _).kind_ne_stack

theorem ScopeId.lookup_ends (scope : ScopeId) (name : String) :
    (scope.lookup name).Ends state fun binding final =>
      final = state ∧ state.lookup? scope name = some binding := by
  rw [Run.Ends, lookup_apply]
  cases state.lookup? scope name with
  | none =>
      intro same
      cases same
  | some binding => exact ⟨rfl, rfl⟩

theorem Binding.callee_ends {region : Region} {binding : Binding} (sound : binding.Sound region)
    (name : String) :
    (binding.callee name).Ends state fun target final => final = state ∧ target.Sound region := by
  cases binding with
  | callable target => exact .of_ok rfl ⟨rfl, sound⟩
  | value bound =>
      obtain ⟨domain, tag, payload, identity⟩ := bound
      rw [callee]
      split
      next same holds =>
        dsimp only at holds
        subst holds
        exact .of_ok rfl ⟨rfl, sound.2⟩
      next =>
        refine (domain.typeName_ends tag).bind fun found middle _ same => ?_
        exact .of_error rfl (by simp [Failure.kind])

end Reads

/-- A frame has exchanged the top of its stack for sound results, and nothing else there was changed. -/
structure State.Exchanged (region : Region) (frame : Frame) (taken : Nat) (left : Int)
    (state final : State) : Prop where
  results : ∃ results, final.operands frame.stack = results ++ (state.operands frame.stack).drop taken ∧
    (results.length : Int) = left ∧ ∀ value ∈ results, value.Sound region
  others {stack : StackId} : state.HasStack stack → stack ≠ frame.stack →
    final.operands stack = state.operands stack
  sound : final.Sound region

namespace State.Exchanged

variable {region : Region} {frame : Frame} {taken : Nat} {left : Int} {state middle final : State}

theorem keepsFrame (exchanged : Exchanged region frame taken left state final) (grown : state.Grows final)
    (before : frame.Sound region state) : frame.Sound region final where
  scope := before.scope
  made := grown.hasStack before.made
  operands {value} member := by
    obtain ⟨results, same, _, sound⟩ := exchanged.results
    rw [same] at member
    rcases List.mem_append.mp member with new | old
    · exact sound value new
    · exact before.operands (List.mem_of_mem_drop old)

theorem next {more : Nat} {last : Int} (first : Exchanged region frame taken left state middle)
    (grown : state.Grows middle) (second : Exchanged region frame more last middle final)
    (within : (more : Int) ≤ left) : Exchanged region frame taken (left - more + last) state final where
  results := by
    obtain ⟨earlier, below, count, sound⟩ := first.results
    obtain ⟨later, above, size, fresh⟩ := second.results
    have fits : more ≤ earlier.length := by omega
    refine ⟨later ++ earlier.drop more, ?_, ?_, ?_⟩
    · rw [above, below, List.drop_append_of_le_length fits, List.append_assoc]
    · rw [List.length_append, List.length_drop]
      omega
    · intro value member
      rcases List.mem_append.mp member with new | old
      · exact fresh value new
      · exact sound value (List.mem_of_mem_drop old)
  others made apart := by
    rw [second.others (grown.hasStack made) apart, first.others made apart]
  sound := second.sound

theorem deeper {more : Nat} {last : Int} (first : Exchanged region frame taken 0 state middle)
    (grown : state.Grows middle) (second : Exchanged region frame more last middle final) :
    Exchanged region frame (taken + more) last state final where
  results := by
    obtain ⟨earlier, below, count, _⟩ := first.results
    obtain ⟨later, above, size, fresh⟩ := second.results
    have none : earlier = [] := List.eq_nil_of_length_eq_zero (by omega)
    rw [below, none, List.nil_append, List.drop_drop] at above
    exact ⟨later, above, size, fresh⟩
  others made apart := by
    rw [second.others (grown.hasStack made) apart, first.others made apart]
  sound := second.sound

theorem push {reached : State} {value : Value} (first : Exchanged region frame taken 0 state middle)
    (made : middle.HasStack frame.stack) (same : reached.operandStacks = middle.operandStacks)
    (sound : reached.Sound region) (pushed : value.Sound region) :
    Exchanged region frame taken 1 state
      (reached.setOperands frame.stack (value :: reached.operands frame.stack)) where
  results := by
    obtain ⟨earlier, below, count, _⟩ := first.results
    have none : earlier = [] := List.eq_nil_of_length_eq_zero (by omega)
    have again : reached.HasStack frame.stack := by
      rw [State.HasStack, same]
      exact made
    refine ⟨[value], ?_, rfl, by simpa using pushed⟩
    rw [State.operands_setOperands_self again, State.operands, same, ← State.operands, below, none]
    rfl
  others present apart := by
    rw [State.operands_setOperands_of_ne _ (Ne.symm apart), State.operands, same, ← State.operands,
      first.others present apart]
  sound := sound.setOperands _ _

end State.Exchanged

theorem pop_ends {region : Region} {frame : Frame} {state : State} (sound : state.Sound region)
    (inside : frame.Sound region state) (present : 1 ≤ (state.operands frame.stack).length) :
    frame.stack.pop.Ends state fun value final =>
      value.Sound region ∧ state.Grows final ∧ state.Exchanged region frame 1 0 final := by
  cases top : state.operands frame.stack with
  | nil =>
      rw [top] at present
      cases present
  | cons value rest =>
      refine .of_ok (frame.stack.pop_of_cons state top) ⟨inside.operands (by rw [top]; simp),
        State.Grows.evolution.operands _ _ _, ⟨[], ?_, rfl, by simp⟩, fun _ apart => ?_,
        sound.setOperands _ _⟩
      · rw [State.operands_setOperands_self inside.made, top]
        rfl
      · exact State.operands_setOperands_of_ne _ (Ne.symm apart) _

def Invoke.Balanced (region : Region) (invoke : Invoke) : Prop :=
  ∀ (target : Callable) (frame : Frame) (taken : Nat) (left : Int) (state : State),
    target.Sound region → state.Sound region → frame.Sound region state →
    taken ≤ (state.operands frame.stack).length →
    (invoke target frame (some taken) (some left)).Ends state fun _ final =>
      state.Exchanged region frame taken left final

/-- Code that leaves a number of results on the operands that it finds. -/
def Leaves (region : Region) (budget : Nat) (code : List Step) (count : Int) : Prop :=
  ∀ (frame : Frame) (state : State), state.Sound region → frame.Sound region state →
    (executeSteps (Callable.callWithin budget) frame code).Ends state fun _ final =>
      state.Exchanged region frame 0 count final

section Code

variable {region : Region} {budget : Nat}

theorem State.Exchanged.unchanged {frame : Frame} {state : State} (sound : state.Sound region) :
    state.Exchanged region frame 0 0 state where
  results := ⟨[], by simp⟩
  others _ _ := rfl
  sound := sound

theorem push_exchanges {frame : Frame} {state : State} {value : Value} (sound : state.Sound region)
    (inside : frame.Sound region state) (pushed : value.Sound region) :
    state.Exchanged region frame 0 1
      (state.setOperands frame.stack (value :: state.operands frame.stack)) where
  results := by
    refine ⟨[value], ?_, rfl, by simpa using pushed⟩
    rw [State.operands_setOperands_self inside.made]
    rfl
  others _ apart := State.operands_setOperands_of_ne state (Ne.symm apart) _
  sound := sound.setOperands _ _

theorem leaves_nil : Leaves region budget [] 0 :=
  fun _ _ sound _ => .of_ok rfl (.unchanged sound)

theorem leaves_append {first second : List Step} {few more : Int} (start : Leaves region budget first few)
    (rest : Leaves region budget second more) : Leaves region budget (first ++ second) (few + more) := by
  intro frame state sound inside
  rw [Run.Ends, executeSteps_append, ← Run.Ends]
  refine (start frame state sound inside).bind fun _ middle ran exchanged => ?_
  have grown := State.Grows.of_executeSteps ran
  refine (rest frame middle exchanged.sound (exchanged.keepsFrame grown inside)).mono
    fun _ final _ later => ?_
  have positive : ((0 : Nat) : Int) ≤ few := by
    obtain ⟨results, _, size, _⟩ := exchanged.results
    omega
  have total := exchanged.next grown later positive
  rw [Int.natCast_zero, Int.sub_zero] at total
  exact total

theorem leaves_push {value : Value} (pushed : value.Sound region) :
    Leaves region budget [.push value] 1 :=
  fun _ _ sound inside => .of_ok rfl (push_exchanges sound inside pushed)

theorem leaves_get (balanced : Invoke.Balanced region (Callable.callWithin budget)) (name : String) :
    Leaves region budget [.get name] 1 := by
  intro frame state sound inside
  rw [Run.Ends, executeSteps_single, ← Run.Ends, Step.execute]
  refine (frame.scope.lookup_ends name).bind fun binding middle _ found => ?_
  obtain ⟨same, bound⟩ := found
  subst same
  have target := sound.lookup inside.scope bound
  cases binding with
  | callable callee => exact balanced callee frame 0 1 _ target sound inside (Nat.zero_le _)
  | value value => exact .of_ok rfl (push_exchanges sound inside target)

theorem leaves_call (balanced : Invoke.Balanced region (Callable.callWithin budget))
    {arguments : List Step} {count : Nat} (present : Leaves region budget arguments count)
    (name : String) (returns : Int) :
    Leaves region budget (arguments ++ [.call name (some count) (some returns)]) returns := by
  intro frame state sound inside
  rw [Run.Ends, executeSteps_append, ← Run.Ends]
  refine (present frame state sound inside).bind fun _ middle ran exchanged => ?_
  have grown := State.Grows.of_executeSteps ran
  have again := exchanged.keepsFrame grown inside
  have enough : count ≤ (middle.operands frame.stack).length := by
    obtain ⟨results, same, size, _⟩ := exchanged.results
    rw [same, List.length_append]
    omega
  rw [Run.Ends, executeSteps_single, ← Run.Ends, Step.execute]
  refine (frame.scope.lookup_ends name).bind fun binding reached _ found => ?_
  obtain ⟨same, bound⟩ := found
  subst same
  refine (Binding.callee_ends (exchanged.sound.lookup inside.scope bound) name).bind
    fun target reached _ resolved => ?_
  obtain ⟨same, callee⟩ := resolved
  subst same
  refine (balanced target frame count returns _ callee exchanged.sound again enough).mono
    fun _ final _ later => ?_
  have total := exchanged.next grown later (Int.le_refl _)
  rw [Int.sub_self, Int.zero_add] at total
  exact total

mutual

theorem leaves_of_lower (balanced : Invoke.Balanced region (Callable.callWithin budget)) :
    ∀ (node : Node) {before after : State} {code : List Step}, node.WellFormed →
      node.lower before = .ok code after → StepsSound region code →
      Leaves region budget code node.resultCount
  | .value constant, _, _, _, _, lowered, sound => by
      cases lowered
      exact leaves_push sound.1
  | .get name, _, _, _, _, lowered, _ => by
      cases lowered
      exact leaves_get balanced name
  | .call name args returns, _, _, _, wellFormed, lowered, sound => by
      obtain ⟨steps, ran, same⟩ := Node.lower_call lowered
      subst same
      obtain ⟨⟨singles, _⟩, inner⟩ := wellFormed
      have arguments := leaves_of_lowerAll balanced args inner ran (stepsSound_append.mp sound).1
      rw [Node.resultCounts_of_singles singles] at arguments
      exact leaves_call balanced arguments name returns
  | .group children, _, _, _, wellFormed, lowered, sound =>
      leaves_of_lowerAll balanced children wellFormed.2 (Node.lower_group lowered) sound
  | .raw domain body, _, _, _, _, lowered, sound => by
      obtain ⟨_, _, _, _, same⟩ := Node.lower_raw lowered
      subst same
      exact leaves_push sound.1
  | .lambda form parameters body parameterList, _, _, _, _, lowered, sound => by
      obtain ⟨_, _, quoted, _, _, same⟩ := Node.lower_lambda lowered
      subst same
      exact leaves_call balanced (leaves_append (leaves_push sound.1) (leaves_push sound.2.1)) _ 1
  | .delay name body quoted, _, _, _, _, lowered, sound => by
      cases lowered
      exact leaves_call balanced (leaves_push sound.1) name 1

theorem leaves_of_lowerAll (balanced : Invoke.Balanced region (Callable.callWithin budget)) :
    ∀ (nodes : List Node) {before after : State} {code : List Step},
      Node.AllEverywhere (fun part => part.CallsSingles ∧ part.HoldsBody) nodes →
      Node.lowerAll nodes before = .ok code after → StepsSound region code →
      Leaves region budget code (Node.resultCounts nodes)
  | [], _, _, _, _, lowered, _ => by
      cases lowered
      exact leaves_nil
  | node :: rest, _, _, _, wellFormed, lowered, sound => by
      obtain ⟨steps, middle, others, first, remaining, same⟩ := Node.lowerAll_cons lowered
      subst same
      obtain ⟨ours, theirs⟩ := stepsSound_append.mp sound
      exact leaves_append (leaves_of_lower balanced node wellFormed.1 first ours)
        (leaves_of_lowerAll balanced rest wellFormed.2 remaining theirs)

end

end Code

end LazyStack
