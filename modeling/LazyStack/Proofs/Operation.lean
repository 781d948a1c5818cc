import LazyStack.Host.Library
import LazyStack.Proofs.Course

/-!
Operations from outside. An operation makes or changes something or runs code at the top level, and it
may fail and then keeps what it has changed. `State.through` is the state after operations in turn, and
`Operation.Reaches` leads to every moment in the course of one.
-/

namespace LazyStack

inductive Operation
  | addDomain (names : Table Tag String)
  | register (domain : DomainId) (tag : Tag) (name : String)
  | addEnvironment (domain : Option DomainId)
  | addHost (environment : Environment) (name : String) (header : HostHeader)
      (body : HostId → HostBody)
  | setGlobal (environment : Environment) (name : String) (binding : Binding)
  | setLimit (limit : Nat)
  | addScope (parent : Option ScopeId)
  | addTopFrame (scope : ScopeId)
  | addLocalFrame (parent : Option ScopeId) (depth : Int)
  | addPromise (scope : ScopeId) (body : List Step)
  | buildLambda (form : LambdaForm) (parameters body : Node)
  | buildDelay (domain : DomainId) (name : String) (children : List Node)
  | execute (environment : Environment) (code : List Step)
  | evaluate (environment : Environment) (node : Node)
  | run (frame : Frame) (code : List Step)
  | call (target : Callable) (frame : Frame) (args returns : Option Int)
  | act (budget : Nat) (actions : Program Unit)

namespace Operation

def perform : Operation → Run Unit
  | .addDomain names => do let _ ← Run.newDomain names
  | .register domain tag name => do let _ ← domain.register tag name
  | .addEnvironment domain => do let _ ← Environment.fresh domain
  | .addHost environment name header body => environment.installHost name header body
  | .setGlobal environment name binding => environment.globals.bind name binding
  | .setLimit limit => modify fun state => { state with callLimit := limit }
  | .addScope parent => do let _ ← Run.newScope parent
  | .addTopFrame scope => do let _ ← Run.newTopFrame scope
  | .addLocalFrame parent depth => do let _ ← Run.newLocalFrame parent depth
  | .addPromise scope body => do let _ ← Run.newPromise scope body
  | .buildLambda form parameters body => do let _ ← form.build parameters body
  | .buildDelay domain name children => do let _ ← Node.buildDelay domain name children
  | .execute environment code => do let _ ← environment.execute code
  | .evaluate environment node => do let _ ← environment.evaluate node
  | .run frame code => runCode frame code
  | .call target frame args returns => Callable.call target frame args returns
  | .act budget actions => actions.run (.within budget)

inductive Begins : Operation → State → Moment → Prop
  | execute {environment code state} :
      Begins (.execute environment code) state
        ⟨callBudget state.callLimit 0, .steps ⟨environment.globals, ⟨state.operandStacks.size⟩, 0⟩ code,
          { state with operandStacks := state.operandStacks.push [] }.record
            (.executing code.length)⟩
  | evaluate {environment node state code middle moment} :
      node.lower state = .ok code middle → Begins (.execute environment code) middle moment →
      Begins (.evaluate environment node) state moment
  | run {frame code state} :
      Begins (.run frame code) state
        ⟨callBudget state.callLimit frame.depth, .steps frame code, state⟩
  | call {target frame args returns state} :
      Begins (.call target frame args returns) state
        ⟨callBudget state.callLimit frame.depth, .call target frame args returns, state⟩
  | act {budget actions state} :
      Begins (.act budget actions) state ⟨budget, .program actions, state⟩

def Reaches (operation : Operation) (state : State) (inner : Moment) : Prop :=
  ∃ moment, operation.Begins state moment ∧ moment.Reaches inner

end Operation

theorem runCode_apply (frame : Frame) (code : List Step) (state : State) :
    runCode frame code state =
      (Activity.steps frame code).run (callBudget state.callLimit frame.depth) state := by
  rw [runCode, Run.bind_of_ok (Run.get_apply state), Activity.run]

theorem Callable.call_apply (target : Callable) (frame : Frame) (args returns : Option Int)
    (state : State) :
    Callable.call target frame args returns state =
      (Activity.call target frame args returns).run (callBudget state.callLimit frame.depth) state := by
  rw [Callable.call, Run.bind_of_ok (Run.get_apply state), Activity.run]

def State.through : List Operation → State → State
  | [], state => state
  | operation :: rest, state => State.through rest (operation.perform.after state)

theorem State.through_append (first second : List Operation) (state : State) :
    State.through (first ++ second) state = State.through second (State.through first state) := by
  induction first generalizing state with
  | nil => rfl
  | cons operation rest ih => exact ih _

/-- The moments that come up in the course of operations in turn. -/
inductive Operation.Arises : List Operation → State → Moment → Prop
  | now {operation rest state inner} :
      operation.Reaches state inner → Arises (operation :: rest) state inner
  | later {operation rest state inner} :
      Arises rest (operation.perform.after state) inner → Arises (operation :: rest) state inner

/-- An evolution that also holds across what only operations change. -/
structure OpenEvolution (relation : State → State → Prop) : Prop extends Evolution relation where
  outside (state : State) (domains : Array Domain) (hosts : Array HostBody) (memories : Array Memory)
      (callLimit : Nat) :
    relation state { state with
      domains := domains, hosts := hosts, hostMemories := memories, callLimit := callLimit }

namespace Evolution

variable {relation : State → State → Prop} (evolution : Evolution relation)
include evolution

theorem keeps_pushQuoted (domain : DomainId) (steps : List Step) :
    Run.Keeps relation (Node.pushQuoted domain steps) :=
  evolution.keeps_bind (evolution.keeps_create _ _ _) fun _ => evolution.keeps_pure _

theorem keeps_pushBody (domain : DomainId) (body : Node) (steps : List Step) :
    Run.Keeps relation (Node.pushBody domain body steps) := by
  rw [Node.pushBody]
  split
  · exact evolution.keeps_pure steps
  · exact evolution.keeps_pushQuoted domain steps

mutual

theorem keeps_lower : ∀ node : Node, Run.Keeps relation node.lower
  | .value constant => evolution.keeps_pure _
  | .get name => evolution.keeps_pure _
  | .call name args returns => by
      rw [Node.lower]
      exact evolution.keeps_bind (keeps_lowerAll args) fun steps => evolution.keeps_pure _
  | .group children => by
      rw [Node.lower]
      exact keeps_lowerAll children
  | .raw domain body => by
      rw [Node.lower]
      exact evolution.keeps_bind (keeps_lower body) fun steps => evolution.keeps_pushQuoted _ _
  | .lambda form parameters body parameterList => by
      rw [Node.lower]
      refine evolution.keeps_bind (keeps_lower body) fun steps => ?_
      exact evolution.keeps_bind (evolution.keeps_pushBody _ _ _) fun quoted => evolution.keeps_pure _
  | .delay name body quoted => evolution.keeps_pure _

theorem keeps_lowerAll : ∀ nodes : List Node, Run.Keeps relation (Node.lowerAll nodes)
  | [] => evolution.keeps_pure []
  | node :: rest => by
      rw [Node.lowerAll]
      refine evolution.keeps_bind (keeps_lower node) fun steps => ?_
      exact evolution.keeps_bind (keeps_lowerAll rest) fun others => evolution.keeps_pure _

end

theorem keeps_quote (domain : DomainId) (node : Node) : Run.Keeps relation (node.quote domain) :=
  evolution.keeps_bind (evolution.keeps_lower node) fun _ => evolution.keeps_create _ _ _

theorem keeps_list (domain : DomainId) (items : List Value) (rest : Value) :
    Run.Keeps relation (domain.list items rest) := by
  induction items with
  | nil => exact evolution.keeps_pure rest
  | cons item items ih =>
      rw [DomainId.list, List.foldrM_cons]
      exact evolution.keeps_bind ih fun tail => evolution.keeps_create _ _ _

theorem keeps_build (form : LambdaForm) (parameters body : Node) :
    Run.Keeps relation (form.build parameters body) := by
  have keepsSymbols (names : List String) : Run.Keeps relation
      (names.mapM fun name => form.domain.create .symbol (.symbol name)) := by
    induction names with
    | nil => exact evolution.keeps_pure []
    | cons name names ih =>
        rw [List.mapM_cons]
        refine evolution.keeps_bind (evolution.keeps_create _ _ _) fun symbol => ?_
        exact evolution.keeps_bind ih fun symbols => evolution.keeps_pure _
  rw [LambdaForm.build]
  refine evolution.keeps_bind evolution.keeps_get fun reached => ?_
  refine evolution.keeps_bind (evolution.keeps_of_reads (Run.reads_ofExcept _)) fun names => ?_
  refine evolution.keeps_bind (keepsSymbols names) fun symbols => ?_
  exact evolution.keeps_bind (evolution.keeps_list _ _ _) fun list => evolution.keeps_pure _

theorem keeps_buildDelay (domain : DomainId) (name : String) (children : List Node) :
    Run.Keeps relation (Node.buildDelay domain name children) := by
  cases children with
  | nil => exact evolution.keeps_throw _
  | cons body others =>
      cases others with
      | nil => exact evolution.keeps_bind (evolution.keeps_quote domain body) fun _ => evolution.keeps_pure _
      | cons => exact evolution.keeps_throw _

end Evolution

namespace OpenEvolution

variable {relation : State → State → Prop} (evolution : OpenEvolution relation)
include evolution

theorem keeps_newDomain (names : Table Tag String) : Run.Keeps relation (Run.newDomain names) := by
  intro state
  let null : Value := ⟨⟨state.domains.size⟩, .null, .null true, state.nextIdentity⟩
  exact evolution.trans
    (evolution.outside state (state.domains.push ⟨names, null⟩) state.hosts state.hostMemories
      state.callLimit)
    (evolution.identity _)

theorem keeps_register (domain : DomainId) (tag : Tag) (name : String) :
    Run.Keeps relation (domain.register tag name) := by
  rw [DomainId.register]
  refine evolution.keeps_bind evolution.keeps_get fun reached => ?_
  refine evolution.keeps_bind (evolution.keeps_of_reads (Run.reads_ofExcept _)) fun renamed => ?_
  refine evolution.keeps_bind (fun state => ?_) fun _ => evolution.keeps_pure name
  exact evolution.outside state _ state.hosts state.hostMemories state.callLimit

theorem keeps_over (domain : DomainId) : Run.Keeps relation (Environment.fresh (some domain)) := by
  refine evolution.keeps_bind (evolution.keeps_pure domain) fun _ => ?_
  refine evolution.keeps_bind (fun state => evolution.scope state none) fun globals => ?_
  refine evolution.keeps_bind (evolution.keeps_bindName _ _ _) fun _ => ?_
  refine evolution.keeps_bind (evolution.keeps_bindName _ _ _) fun _ => ?_
  refine evolution.keeps_bind (evolution.keeps_bindName _ _ _) fun _ => ?_
  refine evolution.keeps_bind (evolution.keeps_bindName _ _ _) fun _ => ?_
  exact evolution.keeps_pure _

theorem keeps_fresh (domain : Option DomainId) : Run.Keeps relation (Environment.fresh domain) := by
  cases domain with
  | some existing => exact evolution.keeps_over existing
  | none => exact evolution.keeps_bind (evolution.keeps_newDomain standardNames) evolution.keeps_over

theorem keeps_installHost (environment : Environment) (name : String) (header : HostHeader)
    (body : HostId → HostBody) : Run.Keeps relation (environment.installHost name header body) := by
  refine evolution.keeps_bind (fun state => ?_) fun id => evolution.keeps_bindName _ _ _
  exact evolution.outside state state.domains (state.hosts.push (body ⟨state.hosts.size⟩))
    (state.hostMemories.push .empty) state.callLimit

-- The runs of the top level are moments; what stands around them is kept step by step.
theorem operation_evolves (operation : Operation) (state : State)
    (stores : ∀ moment, operation.Begins state moment → moment.Stores relation) :
    relation state (operation.perform.after state) := by
  have dropping {α : Type} {run : Run α} (kept : relation state (run.after state)) :
      relation state ((do let _ ← run : Run Unit).after state) :=
    evolution.after_bind kept fun _ middle _ => evolution.refl middle
  have executed (environment : Environment) (code : List Step) (start : State)
      (storing : ∀ moment, Operation.Begins (.execute environment code) start moment →
        moment.Stores relation) :
      relation start ((environment.execute code).after start) := by
    rw [Environment.execute]
    refine evolution.after_bind (evolution.keeps_newTopFrame _ start) fun frame middle made => ?_
    cases made
    refine evolution.after_bind (evolution.keeps_record _ _) fun _ logged recorded => ?_
    cases recorded
    refine evolution.after_bind ?_ fun _ final _ => evolution.refl final
    rw [Run.after, runCode_apply, ← Run.after]
    exact Moment.evolves evolution.toEvolution _ (storing _ .execute)
  cases operation with
  | addDomain names => exact dropping (evolution.keeps_newDomain names state)
  | register domain tag name => exact dropping (evolution.keeps_register domain tag name state)
  | addEnvironment domain => exact dropping (evolution.keeps_fresh domain state)
  | addHost environment name header body =>
      exact evolution.keeps_installHost environment name header body state
  | setGlobal environment name binding => exact evolution.keeps_bindName _ name binding state
  | setLimit limit =>
      exact evolution.outside state state.domains state.hosts state.hostMemories limit
  | addScope parent => exact dropping (evolution.scope state parent)
  | addTopFrame scope => exact dropping (evolution.keeps_newTopFrame scope state)
  | addLocalFrame parent depth => exact dropping (evolution.keeps_newLocalFrame parent depth state)
  | addPromise scope body => exact dropping (evolution.keeps_newPromise scope body state)
  | buildLambda form parameters body =>
      exact dropping (evolution.keeps_build form parameters body state)
  | buildDelay domain name children =>
      exact dropping (evolution.keeps_buildDelay domain name children state)
  | execute environment code => exact dropping (executed environment code state stores)
  | evaluate environment node =>
      refine dropping (evolution.after_bind (evolution.keeps_lower node state)
        fun code middle lowered => ?_)
      exact executed environment code middle fun moment begun => stores moment (.evaluate lowered begun)
  | run frame code =>
      rw [Operation.perform, Run.after, runCode_apply, ← Run.after]
      exact Moment.evolves evolution.toEvolution _ (stores _ .run)
  | call target frame args returns =>
      rw [Operation.perform, Run.after, Callable.call_apply, ← Run.after]
      exact Moment.evolves evolution.toEvolution _ (stores _ .call)
  | act budget actions => exact Moment.evolves evolution.toEvolution _ (stores _ .act)

theorem begins_evolves {operation : Operation} {state : State} {moment : Moment}
    (begun : operation.Begins state moment) : relation state moment.state := by
  induction begun with
  | execute => exact evolution.trans (evolution.stack _) (evolution.record _ _)
  | evaluate lowered _ ih => exact evolution.trans ((evolution.keeps_lower _).of_ok lowered) ih
  | run => exact evolution.refl _
  | call => exact evolution.refl _
  | act => exact evolution.refl _

theorem reaches_evolves {operation : Operation} {state : State} {inner : Moment}
    (reached : operation.Reaches state inner)
    (stores : ∀ moment, operation.Reaches state moment → moment.Stores relation) :
    relation state inner.state := by
  obtain ⟨moment, begun, nested⟩ := reached
  refine evolution.trans (evolution.begins_evolves begun) ?_
  exact Moment.reaches_evolves evolution.toEvolution nested (stores _ ⟨moment, begun, .here _⟩)

theorem through_evolves {operations : List Operation} {state : State}
    (stores : ∀ moment, Operation.Arises operations state moment → moment.Stores relation) :
    relation state (State.through operations state) := by
  induction operations generalizing state with
  | nil => exact evolution.refl state
  | cons operation rest ih =>
      have first := evolution.operation_evolves operation state fun moment begun =>
        stores moment (.now ⟨moment, begun, .here _⟩)
      exact evolution.trans first (ih fun moment arises => stores moment (.later arises))

theorem arises_evolves {operations : List Operation} {state : State} {inner : Moment}
    (arises : Operation.Arises operations state inner)
    (stores : ∀ moment, Operation.Arises operations state moment → moment.Stores relation) :
    relation state inner.state := by
  induction arises with
  | now reached =>
      exact evolution.reaches_evolves reached fun moment comesUp => stores moment (.now comesUp)
  | @later operation rest state inner _ ih =>
      have first := evolution.operation_evolves operation state fun moment begun =>
        stores moment (.now ⟨moment, begun, .here _⟩)
      exact evolution.trans first (ih fun moment later => stores moment (.later later))

end OpenEvolution

end LazyStack
