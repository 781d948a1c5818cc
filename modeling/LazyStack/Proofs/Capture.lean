import LazyStack.Proofs.Lexical
import LazyStack.Proofs.ParameterList

/-!
Capture. A lambda and a delay are lowered to calls of a name, and that name is looked up like any other. So
they make a closure or a promise as long as no activation around them has the name as a parameter. Where
one has, its argument is called in place of the built-in, on the operands that were pushed for that.
-/

namespace LazyStack

def captured? (name : String) (levels : List Level) : Option Value :=
  levels.findSome? fun level => level.argument? name

def callArgument (budget : Nat) (name : String) (argument : Value) (frame : Frame)
    (args returns : Option Int) : Run Unit := do
  let target ← (Binding.value argument).callee name
  Callable.callWithin budget target frame args returns

section Captured

variable {name : String} {levels : List Level} {argument : Value} {state : State}

theorem captured?_eq_none_iff :
    captured? name levels = none ↔ ∀ level ∈ levels, name ∉ level.parameters := by
  rw [captured?, List.findSome?_eq_none_iff]
  refine forall₂_congr fun level _ => ?_
  rw [← Option.not_isSome_iff_eq_none, level.argument?_isSome_iff]

theorem State.means?_of_captured (globals : ScopeId) (captured : captured? name levels = some argument) :
    state.means? globals levels name = some (.value argument) := by
  induction levels with
  | nil => cases captured
  | cons level outer ih =>
      rw [captured?, List.findSome?_cons] at captured
      rw [means?]
      cases given : level.argument? name with
      | some own =>
          rw [given] at captured
          cases captured
          rw [if_pos ((level.argument?_isSome_iff name).mp (by rw [given]; rfl))]
          rfl
      | none =>
          rw [given] at captured
          have absent : name ∉ level.parameters := by
            rw [← level.argument?_isSome_iff name, given]
            exact Bool.false_ne_true
          rw [if_neg absent]
          exact ih captured

theorem callArgument_of_ne (budget : Nat) (frame : Frame) (args returns : Option Int)
    (plain : argument.tag ≠ .callable) :
    ∃ failure, failure.kind = .type ∧
      callArgument budget name argument frame args returns state = .error failure state := by
  rcases argument.callee_cases name state with ⟨_, tagged, _, _⟩ | ⟨_, failure, kind, refused⟩
  · exact absurd tagged plain
  · exact ⟨failure, kind, Run.bind_of_error refused⟩

end Captured

theorem pushPromise_of_registered {domain : DomainId} {frame : Frame} {state : State}
    (registered : ((state.domain domain).names.get? .callable).isSome) (made : state.HasStack frame.stack)
    (body : List Step) :
    ∃ id identity final, pushPromise domain frame body state = .ok () final ∧
      final.promise id = .pending frame.scope body ∧
      final.operands frame.stack =
        ⟨domain, .callable, .callable (.promise id), identity⟩ :: state.operands frame.stack := by
  have still : (({ state with promises := state.promises.push (.pending frame.scope body) } :
      State).domain domain).names.get? .callable |>.isSome := registered
  obtain ⟨final, pushed, same, operands⟩ := push_callable_of_registered still made
  refine ⟨⟨state.promises.size⟩, _, final, pushed, ?_, operands⟩
  rw [State.promise, same, Array.getElem?_push_size]
  rfl

/-- The lambdas and delays that a run of a body comes to make closures and promises over its scope, or call the
argument that the innermost activation has under the name of the form. -/
structure CallsForms (environment : Environment) (levels : List Level) (body : Tree) (budget : Nat)
    (frame : Frame) (state : State) : Prop where
  scope : frame.scope = scopeOf environment.globals levels
  lambda {parameters : List String} {list : Value} {quoter : DomainId} {inner : Tree} {identity : Nat}
      {ahead : List Step} {middle : State} :
    body.Spans (.lambda parameters list quoter inner identity) →
    ComesTo budget frame body.code state
      ((Tree.lambda parameters list quoter inner identity).code ++ ahead) middle →
    executeSteps (Callable.callWithin budget) frame
        (Tree.lambda parameters list quoter inner identity).code middle =
      match captured? closureName levels with
      | none => pushClosure environment.domain frame parameters inner.code middle
      | some argument => callArgument budget closureName argument frame (some 2) (some 1)
          (middle.setOperands frame.stack
            (quotedCode quoter inner.code identity :: list :: middle.operands frame.stack))
  delay {quoter : DomainId} {inner : Tree} {identity : Nat} {ahead : List Step} {middle : State} :
    ComesTo budget frame body.code state ((Tree.delay quoter inner identity).code ++ ahead) middle →
    executeSteps (Callable.callWithin budget) frame (Tree.delay quoter inner identity).code middle =
      match captured? delayName levels with
      | none => pushPromise quoter frame inner.code middle
      | some argument => callArgument budget delayName argument frame (some 1) (some 1)
          (middle.setOperands frame.stack
            (quotedCode quoter inner.code identity :: middle.operands frame.stack))
  closes {parameters : List String} {code ahead : List Step} {middle : State} :
    ComesTo budget frame body.code state ahead middle →
    ((middle.domain environment.domain).names.get? .callable).isSome →
      ∃ identity final, pushClosure environment.domain frame parameters code middle = .ok () final ∧
        final.operands frame.stack =
          ⟨environment.domain, .callable, .callable (.closure frame.scope code parameters), identity⟩ ::
            middle.operands frame.stack
  promises {domain : DomainId} {code ahead : List Step} {middle : State} :
    ComesTo budget frame body.code state ahead middle →
    ((middle.domain domain).names.get? .callable).isSome →
      ∃ id identity final, pushPromise domain frame code middle = .ok () final ∧
        final.promise id = .pending frame.scope code ∧
        final.operands frame.stack =
          ⟨domain, .callable, .callable (.promise id), identity⟩ :: middle.operands frame.stack
  refuses {name : String} {argument : Value} {args returns : Option Int} {middle : State} :
    captured? name levels = some argument → argument.tag ≠ .callable →
      ∃ failure, failure.kind = .type ∧
        callArgument budget name argument frame args returns middle = .error failure middle

section Forms

variable {environment : Environment} {null : Value} {tree body : Tree} {courses : List Moment}
  {levels : List Level} {budget : Nat} {frame : Frame} {state middle : State} {ahead : List Step}
  (setting : CoursesIn environment null courses)
  (runs : Runs environment.globals tree courses levels body budget frame state)
include setting runs

theorem ComesTo.form_of_captured (constants : List Value) {name : String} {args returns : Option Int}
    {argument : Value} (distinct : tree.Binders List.Nodup)
    (comes : ComesTo budget frame body.code state
      (constants.map .push ++ .call name args returns :: ahead) middle)
    (captured : captured? name levels = some argument) :
    executeSteps (Callable.callWithin budget) frame (constants.map .push ++ [.call name args returns])
        middle =
      callArgument budget name argument frame args returns
        (middle.setOperands frame.stack (constants.reverse ++ middle.operands frame.stack)) := by
  have made := comes.hasStack runs
  have pushed := executeSteps_constants (Callable.callWithin budget) made constants
  have bound := (comes.rest pushed).lookup setting runs distinct name
  rw [State.means?_of_captured _ captured] at bound
  rw [executeSteps_form _ made, Step.execute_call_of_bound bound]
  rfl

theorem Runs.callsForms (built : tree.Built null) (distinct : tree.Binders List.Nodup) :
    CallsForms environment levels body budget frame state where
  scope := (runs.nests setting).1
  lambda {_ list quoter inner identity _ _} spans comes := by
    cases captured : captured? closureName levels with
    | none => exact comes.lambda setting runs built distinct (captured?_eq_none_iff.mp captured) spans
    | some argument =>
        exact comes.form_of_captured setting runs [list, quotedCode quoter inner.code identity] distinct
          captured
  delay {quoter inner identity _ _} comes := by
    cases captured : captured? delayName levels with
    | none => exact comes.delay setting runs distinct (captured?_eq_none_iff.mp captured)
    | some argument =>
        exact comes.form_of_captured setting runs [quotedCode quoter inner.code identity] distinct captured
  closes comes registered := pushClosure_of_registered registered (comes.hasStack runs) _ _
  promises comes registered := pushPromise_of_registered registered (comes.hasStack runs) _
  refuses _ plain := callArgument_of_ne _ _ _ _ plain

end Forms

/-- In every run of a body of a tree a lambda makes a closure and a delay a promise over the scope of the run, as long
as no activation around the run has the name of the form as a parameter. Where one has, the innermost argument of that
name is called in its place. -/
theorem forms_call_what_their_names_mean (environment : Environment) (null : Value) (node : Node)
    (built : node.Built environment null) (before after : State) (code : List Step)
    (lowered : node.lower before = .ok code after) :
    ∃ tree, node.HasTree tree ∧ tree.code = code ∧
      ∀ courses, CoursesIn environment null courses →
        ∀ levels body budget frame state,
          Runs environment.globals tree courses levels body budget frame state →
            CallsForms environment levels body budget frame state ∧
            ∀ name, (captured? name levels = none ↔ ∀ level ∈ levels, name ∉ level.parameters) ∧
              (tree.Binders (fun parameters => name ∉ parameters) → captured? name levels = none) := by
  obtain ⟨tree, has, treeBuilt, same⟩ := built.exists_tree lowered
  refine ⟨tree, has, same, fun courses setting levels body budget frame state runs => ⟨?_, ?_⟩⟩
  · exact runs.callsForms setting treeBuilt has.distinct
  · intro name
    refine ⟨captured?_eq_none_iff, fun free => ?_⟩
    exact captured?_eq_none_iff.mpr (runs.levels_obey free List.not_mem_nil)

def takerList : Value :=
  ⟨⟨0⟩, .cell, .cell (symbolNamed closureName 3) firstNull, 4⟩

def takerNode : Node :=
  .lambda ⟨⟨0⟩, firstNull, closureName⟩ (.get closureName) identityNode takerList

def takerCode : List Step :=
  [.push takerList, .push (quotedCode ⟨0⟩ identityCode 2), .call closureName (some 2) (some 1)]

def takerMade : Moment :=
  ⟨3, .steps ⟨⟨0⟩, ⟨0⟩, 0⟩ takerCode, oneFrame⟩

def takerCalled : Moment :=
  ⟨2, .call (.closure ⟨0⟩ identityCode [closureName]) ⟨⟨0⟩, ⟨0⟩, 0⟩ (some 1) (some 1),
    takerMade.after.setOperands ⟨0⟩ [someSymbol]⟩

theorem taker_coursesIn : CoursesIn ⟨⟨0⟩, ⟨0⟩⟩ firstNull [takerMade, takerCalled] := by
  refine .of_plain ?_ ?_
  · exact .cons_cons (.of_same rfl rfl) (.singleton _)
  · simp only [List.forall_mem_cons]
    refine ⟨?_, ?_, by simp⟩
    · exact ⟨rfl, fun every => every _, ⟨by decide, rfl⟩, ⟨rfl, rfl, by decide⟩, rfl, rfl⟩
    · exact ⟨rfl, fun every => every _, ⟨by decide, rfl⟩, ⟨rfl, rfl, by decide⟩, rfl, rfl⟩

theorem forms_call_what_their_names_mean_in_taker :
    ∃ tree, takerNode.HasTree tree ∧ ∃ level inner frame start,
      Runs ⟨0⟩ tree [takerMade, takerCalled] [level] inner 1 frame start ∧ inner.code = identityCode ∧
        captured? closureName [level] = some someSymbol ∧ ∃ failure final, failure.kind = .type ∧
          executeSteps (Callable.callWithin 1) frame inner.code start = .error failure final := by
  have owns : (oneFrameAfter 3).OwnsNull ⟨0⟩ firstNull := ⟨rfl, rfl, by decide⟩
  have compiled : (Environment.lambdaForm ⟨⟨0⟩, ⟨0⟩⟩ >>= fun form =>
      form.build (.get closureName) identityNode) (oneFrameAfter 3) = .ok takerNode (oneFrameAfter 5) := rfl
  have built : takerNode.Built ⟨⟨0⟩, ⟨0⟩⟩ firstNull := .lambda identityNode_built owns compiled
  have lowered : takerNode.lower oneFrame = .ok takerCode (oneFrameAfter 3) := rfl
  obtain ⟨tree, has, same, calls⟩ := forms_call_what_their_names_mean ⟨⟨0⟩, ⟨0⟩⟩ firstNull takerNode
    built oneFrame _ takerCode lowered
  have made : takerMade.Reaches ⟨3, .steps ⟨⟨0⟩, ⟨0⟩, 0⟩ tree.code, oneFrame⟩ := same ▸ .here _
  have whole : Runs ⟨0⟩ tree [takerMade, takerCalled] [] tree 3 ⟨⟨0⟩, ⟨0⟩, 0⟩ oneFrame :=
    .whole rfl (by decide) ⟨takerMade, by simp, made⟩
  have shape := has
  rw [takerNode] at shape
  cases shape with
  | lambda named raw inner =>
      cases named
      rw [identityNode] at inner
      cases inner with
      | lambda named raw deeper =>
          cases named
          cases deeper
          cases same
          have admitted : (Callable.closure ⟨0⟩ identityCode [closureName]).Admits ⟨⟨0⟩, ⟨0⟩, 0⟩ (some 1)
              (some 1) takerCalled.state := by
            rintro signature ⟨⟩
            exact ⟨by simp [Signature.Accepts], by decide⟩
          have entered : enterClosure ⟨0⟩ [closureName] ⟨⟨0⟩, ⟨0⟩, 0⟩ takerCalled.state = .ok _ _ := rfl
          have runs := Runs.lambda whole (.here _)
            (.next (List.Sublist.refl _) made (.inside (.body admitted) (.here _))) entered (by decide)
          have forms := (calls _ taker_coursesIn _ _ _ _ _ runs).1
          have called := @forms.lambda _ _ _ _ _ [] _ (.here _) ⟨[], rfl, rfl⟩
          obtain ⟨failure, kind, refused⟩ :=
            @forms.refuses closureName someSymbol (some 2) (some 1) _ rfl (by decide)
          exact ⟨_, has, _, _, _, _, runs, rfl, rfl, failure, _, kind, called.trans refused⟩

/-- An environment's own compiler takes a parameter with the name of its form. The closure is made, and its
first call fails: the lambda inside calls the argument, which is a symbol. -/
theorem parameter_captures_closure :
    ∃ node code made identity target final,
      (Environment.lambdaForm ⟨⟨0⟩, ⟨0⟩⟩ >>= fun form => form.build (.get closureName) identityNode)
        (oneFrameAfter 3) = .ok node (oneFrameAfter 5) ∧
      node.lower (oneFrameAfter 5) = .ok code (oneFrameAfter 7) ∧
      runCode ⟨⟨0⟩, ⟨0⟩, 0⟩ code (oneFrameAfter 7) = .ok () made ∧
      made.operands ⟨0⟩ = [⟨⟨0⟩, .callable, .callable target, identity⟩] ∧
      target.call ⟨⟨0⟩, ⟨0⟩, 0⟩ (some 1) (some 1) (made.setOperands ⟨0⟩ [someSymbol]) =
        .error (.notCallable closureName "symbol") final :=
  ⟨takerNode, _, _, _, .closure ⟨0⟩ _ [closureName], _, rfl, rfl, rfl, rfl, rfl⟩

end LazyStack
