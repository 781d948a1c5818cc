import LazyStack.Proofs.Activation
import LazyStack.Proofs.Confinement
import LazyStack.Proofs.Grammar
import LazyStack.Proofs.Interpreter

/-!
Lexical resolution. A lambda or a delay of a tree makes a closure or a promise over the scope that it is
evaluated in, and each call of that opens one more scope inside it. So the chain of scopes of a body
follows the nesting of the tree, one activation for each lambda and delay around it, and a name means the
argument of the innermost activation that has it as a parameter, or else what it is bound to globally.
-/

namespace LazyStack

namespace Tree

mutual

def Binders (law : List String → Prop) : Tree → Prop
  | .call _ args _ => AllBinders law args
  | .group children => AllBinders law children
  | .raw _ body _ => body.Binders law
  | .lambda parameters _ _ body _ => law parameters ∧ body.Binders law
  | .delay _ body _ => body.Binders law
  | _ => True

def AllBinders (law : List String → Prop) : List Tree → Prop
  | [] => True
  | tree :: rest => tree.Binders law ∧ AllBinders law rest

end

/-- The trees that are evaluated with a tree, on the same frame. -/
inductive Spans : Tree → Tree → Prop
  | here (tree : Tree) : Spans tree tree
  | argument {name args returns arg part} :
      arg ∈ args → Spans arg part → Spans (.call name args returns) part
  | child {children child part} : child ∈ children → Spans child part → Spans (.group children) part

variable {null : Value} {law : List String → Prop} {whole part : Tree}

theorem allBuilt_iff {trees : List Tree} : AllBuilt null trees ↔ ∀ tree ∈ trees, tree.Built null := by
  induction trees with
  | nil => simp [AllBuilt]
  | cons tree rest ih => simp [AllBuilt, ih]

theorem allBinders_iff {trees : List Tree} : AllBinders law trees ↔ ∀ tree ∈ trees, tree.Binders law := by
  induction trees with
  | nil => simp [AllBinders]
  | cons tree rest ih => simp [AllBinders, ih]

theorem Spans.built (spans : whole.Spans part) (built : whole.Built null) : part.Built null := by
  induction spans with
  | here => exact built
  | argument member _ ih => exact ih (allBuilt_iff.mp built _ member)
  | child member _ ih => exact ih (allBuilt_iff.mp built _ member)

theorem Spans.binders (spans : whole.Spans part) (binders : whole.Binders law) : part.Binders law := by
  induction spans with
  | here => exact binders
  | argument member _ ih => exact ih (allBinders_iff.mp binders _ member)
  | child member _ ih => exact ih (allBinders_iff.mp binders _ member)

end Tree

def Step.symbol? : Step → Option String
  | .get name => some name
  | .call name _ _ => some name
  | _ => none

open Moment

/-- The runs of the bodies of a tree. It runs itself in the global scope; where a body that runs spans a lambda or a
delay, a later call of what was made of that over the scope of the run runs its body, in a further activation. -/
inductive Runs (globals : ScopeId) (tree : Tree) (courses : List Moment) :
    List Level → Tree → Nat → Frame → State → Prop
  | whole {budget frame state} : frame.scope = globals → state.HasStack frame.stack →
      Arises courses ⟨budget, .steps frame tree.code, state⟩ →
      Runs globals tree courses [] tree budget frame state
  | lambda {levels body budget frame state parameters list quoter inner identity smaller caller args
      returns called opened start} :
      Runs globals tree courses levels body budget frame state →
      body.Spans (.lambda parameters list quoter inner identity) →
      Later courses ⟨budget, .steps frame body.code, state⟩
        ⟨smaller + 1, .body (.closure frame.scope inner.code parameters) caller args returns, called⟩ →
      enterClosure frame.scope parameters caller called = .ok opened start →
      (enough : parameters.length ≤ (called.operands caller.stack).length) →
      Runs globals tree courses
        (.ofCall opened.scope parameters (called.operands caller.stack) enough :: levels) inner smaller
        opened start
  | delay {levels body budget frame state quoter inner identity smaller id caller args returns called
      opened start} :
      Runs globals tree courses levels body budget frame state →
      body.Spans (.delay quoter inner identity) →
      Later courses ⟨budget, .steps frame body.code, state⟩
        ⟨smaller + 1, .body (.promise id) caller args returns, called⟩ →
      called.promise id = .pending frame.scope inner.code →
      enterPromise (some frame.scope) caller called = .ok opened start →
      Runs globals tree courses (.ofDelay opened.scope :: levels) inner smaller opened start

/-- Courses in turn in an environment that has its two forms bound globally throughout, and in which no
host binds a name in a local scope. -/
structure CoursesIn (environment : Environment) (null : Value) (courses : List Moment) : Prop where
  inTurn : InTurn courses
  spares : ∀ whole ∈ courses, whole.Keeps Action.SparesLocals
  outermost : ∀ whole ∈ courses, whole.state.Nests environment.globals []
  owns : ∀ whole ∈ courses, whole.state.OwnsNull environment.domain null
  closure {inner : Moment} : Arises courses inner →
    inner.state.Calls environment.globals closureName (.makeClosure environment.domain)
  delay {inner : Moment} : Arises courses inner → inner.state.Calls environment.globals delayName .delay

theorem Moment.starts_of_pending {budget : Nat} {id : PromiseId} {scope : ScopeId} {body : List Step}
    {frame inner : Frame} {args returns : Option Int} {state start : State}
    (pending : state.promise id = .pending scope body)
    (entered : enterPromise (some scope) frame state = .ok inner start) :
    Starts ⟨budget + 1, .body (.promise id) frame args returns, state⟩ ⟨budget, .steps inner body, start⟩ := by
  have held : (state.promise id).body.getD [] = body := by rw [pending]; rfl
  rw [← held]
  exact .promise (by rw [pending]; rfl) (by rw [pending]; exact entered)

namespace Runs

variable {environment : Environment} {null : Value} {globals : ScopeId} {tree body : Tree}
  {courses : List Moment} {levels : List Level} {budget : Nat} {frame : Frame} {state : State}

theorem arises (runs : Runs globals tree courses levels body budget frame state) :
    Arises courses ⟨budget, .steps frame body.code, state⟩ := by
  cases runs with
  | whole _ _ arises => exact arises
  | lambda _ _ later entered _ => exact later.arises.inside (.inside (.closure entered) (.here _))
  | delay _ _ later pending entered =>
      exact later.arises.inside (.inside (starts_of_pending pending entered) (.here _))

theorem hasStack (runs : Runs globals tree courses levels body budget frame state) :
    state.HasStack frame.stack := by
  have made {before : State} {opened : Scope} (opens : before.Opens opened frame state) :
      state.HasStack frame.stack := by
    rw [State.HasStack, opens.stack, opens.operandStacks]
    exact Nat.lt_succ_self _
  cases runs with
  | whole _ made _ => exact made
  | lambda _ _ _ entered _ => exact made (enterClosure_opens entered)
  | delay _ _ _ _ entered => exact made (enterPromise_opens entered)

theorem built (runs : Runs globals tree courses levels body budget frame state)
    (built : tree.Built null) : body.Built null := by
  induction runs with
  | whole => exact built
  | lambda _ spans _ _ _ ih => exact (spans.built ih).2
  | delay _ spans _ _ _ ih => exact spans.built ih

theorem binders {law : List String → Prop}
    (runs : Runs globals tree courses levels body budget frame state) (binders : tree.Binders law) :
    body.Binders law := by
  induction runs with
  | whole => exact binders
  | lambda _ spans _ _ _ ih => exact (spans.binders ih).2
  | delay _ spans _ _ _ ih => exact spans.binders ih

theorem levels_obey {law : List String → Prop}
    (runs : Runs globals tree courses levels body budget frame state) (binders : tree.Binders law)
    (empty : law []) : ∀ level ∈ levels, law level.parameters := by
  induction runs with
  | whole => simp
  | lambda runs spans _ _ _ ih =>
      intro level member
      rcases List.mem_cons.mp member with same | outer
      · exact same ▸ (spans.binders (runs.binders binders)).1
      · exact ih level outer
  | delay _ _ _ _ _ ih =>
      intro level member
      rcases List.mem_cons.mp member with same | outer
      · exact same ▸ empty
      · exact ih level outer

theorem nests (setting : CoursesIn environment null courses)
    (runs : Runs environment.globals tree courses levels body budget frame state) :
    frame.scope = scopeOf environment.globals levels ∧ state.Nests environment.globals levels := by
  induction runs with
  | whole same _ arises =>
      obtain ⟨whole, member, reached⟩ := arises
      have retained := reached.leads_to.retains (setting.spares whole member)
      exact ⟨same, retained.nests (setting.outermost whole member)⟩
  | lambda _ _ later entered _ ih =>
      obtain ⟨same, around⟩ := ih
      rw [same] at entered
      have still := (later.retains setting.spares setting.inTurn).nests around
      exact ⟨rfl, still.enter rfl (enterClosure_opens entered)⟩
  | delay _ _ later _ entered ih =>
      obtain ⟨same, around⟩ := ih
      rw [same] at entered
      have still := (later.retains setting.spares setting.inTurn).nests around
      exact ⟨rfl, still.enter rfl (enterPromise_opens entered)⟩

end Runs

/-- A run of code comes to a state with the code ahead that is yet to run. -/
def ComesTo (budget : Nat) (frame : Frame) (code : List Step) (state : State) (ahead : List Step)
    (middle : State) : Prop :=
  ∃ first, code = first ++ ahead ∧
    executeSteps (Callable.callWithin budget) frame first state = .ok () middle

theorem ComesTo.reaches {budget : Nat} {frame : Frame} {code ahead : List Step} {state middle : State}
    (comes : ComesTo budget frame code state ahead middle) :
    Reaches ⟨budget, .steps frame code, state⟩ ⟨budget, .steps frame ahead, middle⟩ := by
  obtain ⟨first, same, ran⟩ := comes
  subst same
  exact reaches_rest ran

theorem ComesTo.rest {budget : Nat} {frame : Frame} {code first ahead : List Step}
    {state middle last : State}
    (comes : ComesTo budget frame code state (first ++ ahead) middle)
    (ran : executeSteps (Callable.callWithin budget) frame first middle = .ok () last) :
    ComesTo budget frame code state ahead last := by
  obtain ⟨done, same, earlier⟩ := comes
  refine ⟨done ++ first, by rw [same, List.append_assoc], ?_⟩
  rw [executeSteps_append, Run.bind_of_ok earlier, ran]

theorem ComesTo.hasStack {globals : ScopeId} {tree body : Tree} {courses : List Moment} {levels : List Level}
    {budget : Nat} {frame : Frame} {state middle : State} {ahead : List Step}
    (runs : Runs globals tree courses levels body budget frame state)
    (comes : ComesTo budget frame body.code state ahead middle) : middle.HasStack frame.stack :=
  (State.Grows.of_reaches comes.reaches).hasStack runs.hasStack

theorem State.Nests.calls {state : State} {globals : ScopeId} {levels : List Level} {name : String}
    {target : Callable} (nests : state.Nests globals levels)
    (distinct : ∀ level ∈ levels, level.parameters.Nodup)
    (absent : ∀ level ∈ levels, name ∉ level.parameters) (calls : state.Calls globals name target) :
    state.Calls (scopeOf globals levels) name target := by
  have same : state.lookup? (scopeOf globals levels) name = state.lookup? globals name := by
    rw [nests.lookup distinct, State.means?_of_not_mem absent]
    exact (nests.outermost.lookup (by simp) name).symm
  rw [State.Calls, same]
  exact calls

theorem CoursesIn.null_eq {environment : Environment} {null : Value} {courses : List Moment}
    {inner : Moment}
    (setting : CoursesIn environment null courses) (arises : Arises courses inner) :
    null.tag = .null ∧ (inner.state.domain environment.domain).null = null := by
  obtain ⟨whole, member, reached⟩ := arises
  have owns := setting.owns whole member
  exact ⟨owns.tagged, (State.Grows.of_reaches reached).null owns.own⟩

mutual

theorem Node.HasTree.distinct : ∀ {node : Node} {tree : Tree}, node.HasTree tree → tree.Binders List.Nodup
  | _, _, .value _ => trivial
  | _, _, .get _ => trivial
  | _, _, .call kept => kept.distinct
  | _, _, .group kept => kept.distinct
  | _, _, .raw has => has.distinct
  | _, _, .lambda named _ has => ⟨(LambdaForm.names_of_collectNames named).2, has.distinct⟩
  | _, _, .lambdaOfRaw named has => ⟨(LambdaForm.names_of_collectNames named).2, has.distinct⟩
  | _, _, .delay has => has.distinct

theorem Node.HaveTrees.distinct : ∀ {nodes : List Node} {trees : List Tree}, Node.HaveTrees nodes trees →
    Tree.AllBinders List.Nodup trees
  | _, _, .nil => trivial
  | _, _, .cons has kept => ⟨has.distinct, kept.distinct⟩

end

def LeavesForms (parameters : List String) : Prop :=
  closureName ∉ parameters ∧ delayName ∉ parameters

section Resolution

variable {environment : Environment} {null : Value} {tree body : Tree} {courses : List Moment}
  {levels : List Level} {budget : Nat} {frame : Frame} {state middle : State} {ahead : List Step}
  (setting : CoursesIn environment null courses)
  (runs : Runs environment.globals tree courses levels body budget frame state)
  (comes : ComesTo budget frame body.code state ahead middle)
include setting runs comes

theorem ComesTo.nests : middle.Nests environment.globals levels := by
  have later : Later courses
      ⟨budget, .steps frame body.code, state⟩ ⟨budget, .steps frame ahead, middle⟩ :=
    .within runs.arises comes.reaches
  exact (later.retains setting.spares setting.inTurn).nests (runs.nests setting).2

theorem ComesTo.lookup (distinct : tree.Binders List.Nodup) (name : String) :
    middle.lookup? frame.scope name = middle.means? environment.globals levels name := by
  rw [(runs.nests setting).1]
  exact (comes.nests setting runs).lookup (runs.levels_obey distinct .nil) name

theorem ComesTo.calls {name : String} {target : Callable} (distinct : tree.Binders List.Nodup)
    (absent : ∀ level ∈ levels, name ∉ level.parameters)
    (calls : middle.Calls environment.globals name target) : middle.Calls frame.scope name target := by
  rw [(runs.nests setting).1]
  exact (comes.nests setting runs).calls (runs.levels_obey distinct .nil) absent calls

omit comes

theorem ComesTo.lambda {parameters : List String} {list : Value} {quoter : DomainId} {inner : Tree}
    {identity : Nat} (built : tree.Built null) (distinct : tree.Binders List.Nodup)
    (absent : ∀ level ∈ levels, closureName ∉ level.parameters)
    (spans : body.Spans (.lambda parameters list quoter inner identity))
    (comes : ComesTo budget frame body.code state
      ((Tree.lambda parameters list quoter inner identity).code ++ ahead) middle) :
    executeSteps (Callable.callWithin budget) frame
        (Tree.lambda parameters list quoter inner identity).code middle =
      pushClosure environment.domain frame parameters inner.code middle := by
  obtain ⟨tagged, own⟩ := setting.null_eq (runs.arises.inside comes.reaches)
  have lists := (spans.built (runs.built built)).1
  refine executeSteps_lambda_of_calls (comes.hasStack runs) lists tagged own fun pushed ran => ?_
  have here : ComesTo budget frame body.code state
      ([.push list, .push (quotedCode quoter inner.code identity)] ++
        .call closureName (some 2) (some 1) :: ahead) middle := comes
  have called := here.rest ran
  have builtIn := setting.closure (runs.arises.inside called.reaches)
  exact called.calls setting runs distinct absent builtIn

theorem ComesTo.delay {quoter : DomainId} {inner : Tree} {identity : Nat}
    (distinct : tree.Binders List.Nodup) (absent : ∀ level ∈ levels, delayName ∉ level.parameters)
    (comes : ComesTo budget frame body.code state
      ((Tree.delay quoter inner identity).code ++ ahead) middle) :
    executeSteps (Callable.callWithin budget) frame (Tree.delay quoter inner identity).code middle =
      pushPromise quoter frame inner.code middle := by
  refine executeSteps_delay_of_calls (comes.hasStack runs) fun pushed ran => ?_
  have here : ComesTo budget frame body.code state
      ([.push (quotedCode quoter inner.code identity)] ++ .call delayName (some 1) (some 1) :: ahead)
      middle := comes
  have called := here.rest ran
  have builtIn := setting.delay (runs.arises.inside called.reaches)
  exact called.calls setting runs distinct absent builtIn

end Resolution

/-- A run of a body, in its activations, uses the bindings that names mean there, and makes closures and
promises over the scope of its own activation. -/
structure Resolves (environment : Environment) (levels : List Level) (body : Tree) (budget : Nat)
    (frame : Frame) (state : State) : Prop where
  scope : frame.scope = scopeOf environment.globals levels
  names {step : Step} {ahead : List Step} {middle : State} {name : String} :
    ComesTo budget frame body.code state (step :: ahead) middle → step.symbol? = some name →
      middle.lookup? frame.scope name = middle.means? environment.globals levels name
  lambdas {parameters : List String} {list : Value} {quoter : DomainId} {inner : Tree} {identity : Nat}
      {ahead : List Step} {middle : State} :
    body.Spans (.lambda parameters list quoter inner identity) →
    ComesTo budget frame body.code state
      ((Tree.lambda parameters list quoter inner identity).code ++ ahead) middle →
    executeSteps (Callable.callWithin budget) frame
        (Tree.lambda parameters list quoter inner identity).code middle =
      pushClosure environment.domain frame parameters inner.code middle
  delays {quoter : DomainId} {inner : Tree} {identity : Nat} {ahead : List Step} {middle : State} :
    ComesTo budget frame body.code state ((Tree.delay quoter inner identity).code ++ ahead) middle →
    executeSteps (Callable.callWithin budget) frame (Tree.delay quoter inner identity).code middle =
      pushPromise quoter frame inner.code middle

/-- In every run of a body of a tree, in any courses in turn, a name means the argument of the innermost activation
around the run that has it as a parameter, or else what it is bound to globally at that moment. Lambdas and delays are
made over the scope of the run, and a promise keeps that scope until it has a value. -/
theorem names_resolve_lexically (environment : Environment) (null : Value) (node : Node)
    (built : node.Built environment null) (before after : State) (code : List Step)
    (lowered : node.lower before = .ok code after) :
    ∃ tree, node.HasTree tree ∧ tree.code = code ∧
      (tree.Binders LeavesForms → ∀ courses, CoursesIn environment null courses →
        (∀ levels body budget frame state,
          Runs environment.globals tree courses levels body budget frame state →
            Resolves environment levels body budget frame state) ∧
        ∀ first second, Later courses first second →
          ∀ id : PromiseId, id.index < first.state.promises.size →
            second.state.promise id = first.state.promise id ∨
              (second.state.promise id).value.isSome) := by
  obtain ⟨tree, has, treeBuilt, same⟩ := built.exists_tree lowered
  have distinct := has.distinct
  refine ⟨tree, has, same, fun free courses setting => ⟨?_, ?_⟩⟩
  · intro levels body budget frame state runs
    have leaves := runs.levels_obey free ⟨List.not_mem_nil, List.not_mem_nil⟩
    have closure : ∀ level ∈ levels, closureName ∉ level.parameters :=
      fun level member => (leaves level member).1
    have delay : ∀ level ∈ levels, delayName ∉ level.parameters :=
      fun level member => (leaves level member).2
    exact {
      scope := (runs.nests setting).1
      names := fun comes _ => comes.lookup setting runs distinct _
      lambdas := fun spans comes => ComesTo.lambda setting runs treeBuilt distinct closure spans comes
      delays := fun comes => ComesTo.delay setting runs distinct delay comes }
  · intro first second later id present
    exact (later.retains setting.spares setting.inTurn).promise present

theorem State.Calls.of_bound {state : State} {scope : ScopeId} {name : String} {target : Callable}
    (outermost : state.Nests scope [])
    (bound : (state.scope scope).bindings.get? name = some (.callable target)) :
    state.Calls scope name target :=
  ⟨.callable target, (outermost.lookup (by simp) name).trans bound, rfl⟩

structure Moment.Plain (environment : Environment) (null : Value) (whole : Moment) : Prop where
  hostless : whole.state.hosts = #[]
  minds {kind : Frame → Prop} {law : Frame → Action → State → Prop} :
    (∀ frame, kind frame) → whole.Minds kind law
  outermost : whole.state.Nests environment.globals []
  owns : whole.state.OwnsNull environment.domain null
  closure : (whole.state.scope environment.globals).bindings.get? closureName =
    some (.callable (.makeClosure environment.domain))
  delay : (whole.state.scope environment.globals).bindings.get? delayName = some (.callable .delay)

section Plain

variable {environment : Environment} {null : Value} {courses : List Moment} {whole inner : Moment}

theorem Moment.Plain.hostsObey (plain : whole.Plain environment null)
    {law : Frame → Action → State → Prop} : whole.HostsObey law :=
  hostsObey_of_library fun body member => absurd (plain.hostless ▸ member) (Array.not_mem_empty body)

theorem Moment.Plain.globals (plain : whole.Plain environment null) (reached : whole.Reaches inner) :
    inner.state.Nests environment.globals [] ∧
      inner.state.scope environment.globals = whole.state.scope environment.globals := by
  have spares : whole.state.Spares (fun _ => True) inner.state :=
    reached.leads_to.spares plain.hostsObey (plain.minds fun _ => trivial) fun _ _ => trivial
  have same := spares.scope plain.outermost.1
  exact ⟨⟨Nat.lt_of_lt_of_le plain.outermost.1 spares.scopes, same ▸ plain.outermost.2⟩, same⟩

theorem CoursesIn.of_plain (inTurn : InTurn courses)
    (plain : ∀ whole ∈ courses, whole.Plain environment null) : CoursesIn environment null courses where
  inTurn := inTurn
  spares whole member := ⟨(plain whole member).hostsObey, (plain whole member).minds fun _ => trivial⟩
  outermost whole member := (plain whole member).outermost
  owns whole member := (plain whole member).owns
  closure := by
    rintro inner ⟨whole, member, reached⟩
    obtain ⟨outermost, same⟩ := (plain whole member).globals reached
    exact .of_bound outermost (same ▸ (plain whole member).closure)
  delay := by
    rintro inner ⟨whole, member, reached⟩
    obtain ⟨outermost, same⟩ := (plain whole member).globals reached
    exact .of_bound outermost (same ▸ (plain whole member).delay)

end Plain

def identityMade : Moment :=
  ⟨3, .steps ⟨⟨0⟩, ⟨0⟩, 0⟩ identityCode, oneFrame⟩

def someSymbol : Value :=
  ⟨⟨0⟩, .symbol, .symbol "a", 9⟩

def identityCalled : Moment :=
  ⟨2, .call (.closure ⟨0⟩ [.get "x"] ["x"]) ⟨⟨0⟩, ⟨0⟩, 0⟩ (some 1) (some 1),
    identityMade.after.setOperands ⟨0⟩ [someSymbol]⟩

theorem identity_coursesIn : CoursesIn ⟨⟨0⟩, ⟨0⟩⟩ firstNull [identityMade, identityCalled] := by
  refine .of_plain ?_ ?_
  · exact .cons_cons (.of_same rfl rfl) (.singleton _)
  · simp only [List.forall_mem_cons]
    refine ⟨?_, ?_, by simp⟩
    · exact ⟨rfl, fun every => every _, ⟨by decide, rfl⟩, ⟨rfl, rfl, by decide⟩, rfl, rfl⟩
    · exact ⟨rfl, fun every => every _, ⟨by decide, rfl⟩, ⟨rfl, rfl, by decide⟩, rfl, rfl⟩

theorem names_resolve_lexically_in_identity :
    ∃ tree, identityNode.HasTree tree ∧ ∃ level frame start,
      Runs ⟨0⟩ tree [identityMade, identityCalled] [level] (.get "x") 1 frame start ∧
        start.lookup? frame.scope "x" = some (.value someSymbol) := by
  obtain ⟨tree, has, same, resolves⟩ := names_resolve_lexically ⟨⟨0⟩, ⟨0⟩⟩ firstNull identityNode
    identityNode_built oneFrame _ identityCode identityNode_lower
  have made : identityMade.Reaches ⟨3, .steps ⟨⟨0⟩, ⟨0⟩, 0⟩ tree.code, oneFrame⟩ := same ▸ .here _
  have whole : Runs ⟨0⟩ tree [identityMade, identityCalled] [] tree 3 ⟨⟨0⟩, ⟨0⟩, 0⟩ oneFrame :=
    .whole rfl (by decide) ⟨identityMade, by simp, made⟩
  have shape := has
  rw [identityNode] at shape
  cases shape with
  | lambda named raw inner =>
      cases named
      cases inner
      have admitted : (Callable.closure ⟨0⟩ [.get "x"] ["x"]).Admits ⟨⟨0⟩, ⟨0⟩, 0⟩ (some 1) (some 1)
          identityCalled.state := by
        rintro signature ⟨⟩
        exact ⟨by simp [Signature.Accepts], by decide⟩
      have entered : enterClosure ⟨0⟩ ["x"] ⟨⟨0⟩, ⟨0⟩, 0⟩ identityCalled.state = .ok _ _ := rfl
      have runs := Runs.lambda whole (.here _)
        (.next (List.Sublist.refl _) made (.inside (.body admitted) (.here _))) entered (by decide)
      refine ⟨_, has, _, _, _, runs, ?_⟩
      have leaves : LeavesForms ["x"] := ⟨by decide, by decide⟩
      have inside := (resolves ⟨leaves, trivial⟩ _ identity_coursesIn).1 _ _ _ _ _ runs
      exact @inside.names (.get "x") [] _ "x" ⟨[], rfl, rfl⟩ rfl

end LazyStack
