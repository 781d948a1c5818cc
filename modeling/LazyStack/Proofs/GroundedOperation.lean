import LazyStack.Proofs.GroundedCall
import LazyStack.Proofs.Operation

/-!
Operations on grounded states. What is asked for from outside can refer only to scopes that there are when it is asked
for. If it does, it keeps the state grounded, and so is every state in its course.
-/

namespace LazyStack

variable {bound more : Nat}

namespace Node

def HoldsBelow (bound : Nat) : Node → Prop
  | .value constant => constant.Below bound
  | .lambda _ _ _ parameterList => parameterList.Below bound
  | .delay _ _ quoted => quoted.Below bound
  | _ => True

def Below (bound : Nat) (node : Node) : Prop :=
  node.Everywhere (HoldsBelow bound)

def AllBelow (bound : Nat) (nodes : List Node) : Prop :=
  AllEverywhere (HoldsBelow bound) nodes

theorem HoldsBelow.mono (wider : bound ≤ more) : ∀ node : Node, node.HoldsBelow bound → node.HoldsBelow more
  | .value _, below => Value.Below.mono wider below
  | .lambda _ _ _ _, below => Value.Below.mono wider below
  | .delay _ _ _, below => Value.Below.mono wider below
  | .get _, _ | .call _ _ _, _ | .group _, _ | .raw _ _, _ => trivial

theorem AllBelow.mono (wider : bound ≤ more) {nodes : List Node} (below : AllBelow bound nodes) :
    AllBelow more nodes :=
  AllEverywhere.imp (HoldsBelow.mono wider) nodes below

theorem grounded_pushQuoted (domain : DomainId) {steps : List Step} (below : StepsBelow bound steps) :
    Run.Grounded bound (fun more code => StepsBelow more code) (pushQuoted domain steps) := by
  refine (domain.grounded_create .code ?_).bind fun _ quoted => .pure ⟨quoted, trivial⟩
  exact below

theorem grounded_pushBody (domain : DomainId) (body : Node) {steps : List Step} (below : StepsBelow bound steps) :
    Run.Grounded bound (fun more code => StepsBelow more code) (pushBody domain body steps) := by
  rw [pushBody]
  split
  · exact .pure below
  · exact grounded_pushQuoted domain below

mutual

theorem grounded_lower : ∀ (node : Node) {bound : Nat}, node.Below bound →
    Run.Grounded bound (fun more code => StepsBelow more code) node.lower
  | .value _, _, below => .pure ⟨below, trivial⟩
  | .get _, _, _ => .pure ⟨trivial, trivial⟩
  | .call _ args _, _, below => by
      rw [lower]
      refine (grounded_lowerAll args below.2).bind fun _ steps => .pure ?_
      exact stepsBelow_append.mpr ⟨steps, trivial, trivial⟩
  | .group children, _, below => by
      rw [lower]
      exact grounded_lowerAll children below.2
  | .raw domain body, _, below => by
      rw [lower]
      exact (grounded_lower body below.2).bind fun _ steps => grounded_pushQuoted domain steps
  | .lambda form _ body parameterList, _, below => by
      rw [lower]
      refine (grounded_lower body below.2).bind fun first steps => ?_
      refine (grounded_pushBody form.domain body steps).bind fun second quoted => .pure ⟨?_, ?_⟩
      · exact Value.Below.mono (Nat.le_trans first second) below.1
      · exact stepsBelow_append.mpr ⟨quoted, trivial, trivial⟩
  | .delay _ _ _, _, below => .pure ⟨below.1, trivial, trivial⟩

theorem grounded_lowerAll : ∀ (nodes : List Node) {bound : Nat}, AllBelow bound nodes →
    Run.Grounded bound (fun more code => StepsBelow more code) (lowerAll nodes)
  | [], _, _ => .pure trivial
  | node :: rest, _, below => by
      rw [lowerAll]
      refine (grounded_lower node below.1).bind fun first steps => ?_
      refine (grounded_lowerAll rest (AllBelow.mono first below.2)).bind fun second others => .pure ?_
      exact stepsBelow_append.mpr ⟨steps.mono second, others⟩

end

theorem grounded_quote (domain : DomainId) {node : Node} (below : node.Below bound) :
    Run.Grounded bound (fun more value => value.Below more) (node.quote domain) := by
  refine (grounded_lower node below).bind fun _ steps => domain.grounded_create .code ?_
  exact steps

theorem grounded_buildDelay (domain : DomainId) (name : String) {children : List Node}
    (below : AllBelow bound children) :
    Run.Grounded bound (fun _ _ => True) (buildDelay domain name children) := by
  match children with
  | [] => exact .throw _
  | [_] => exact (grounded_quote domain below.1).bind fun _ _ => .pure trivial
  | _ :: _ :: _ => exact .throw _

end Node

theorem LambdaForm.grounded_build (form : LambdaForm) (parameters body : Node) (below : form.null.Below bound) :
    Run.Grounded bound (fun _ _ => True) (form.build parameters body) := by
  have symbols {bound : Nat} (names : List String) :
      Run.Grounded bound (fun more values => ∀ value ∈ values, value.Below more)
        (names.mapM fun name => form.domain.create .symbol (.symbol name)) := by
    induction names generalizing bound with
    | nil => exact .pure nofun
    | cons name names ih =>
        rw [List.mapM_cons]
        refine (form.domain.grounded_create .symbol (by trivial)).bind fun _ first => ?_
        exact ih.bind fun wider others => .pure (List.forall_mem_cons.mpr ⟨first.mono wider, others⟩)
  rw [build]
  refine Run.Grounded.get.bind fun first _ => ?_
  refine (Run.Grounded.of_reads (Run.reads_ofExcept _)).bind fun second names => ?_
  refine (symbols _).bind fun third items => ?_
  have last := below.mono (Nat.le_trans first (Nat.le_trans second third))
  exact (form.domain.grounded_list items last).bind fun _ _ => .pure trivial

theorem grounded_runCode {frame : Frame} (inside : frame.Below bound) {code : List Step}
    (below : StepsBelow bound code) : Run.Grounded bound (fun _ _ => True) (runCode frame code) :=
  Run.Grounded.get.bind fun wider _ =>
    grounded_executeSteps (Callable.grounded_callWithin _) (inside.mono wider) (below.mono wider)

theorem Callable.grounded_call {target : Callable} {frame : Frame} (below : target.Below bound)
    (inside : frame.Below bound) (args returns : Option Int) :
    Run.Grounded bound (fun _ _ => True) (Callable.call target frame args returns) :=
  Run.Grounded.get.bind fun wider _ =>
    Callable.grounded_callWithin _ args returns (below.mono wider) (inside.mono wider)

namespace Environment

theorem grounded_over (domain : DomainId) : Run.Grounded bound (fun _ _ => True) (fresh (some domain)) := by
  have chosen : Run.Grounded bound (fun _ _ => True) (pure domain) := .pure trivial
  refine chosen.bind fun _ _ => ?_
  refine (Run.grounded_newScope (by rintro _ ⟨⟩)).bind fun {_ globals} _ _ => ?_
  refine (globals.grounded_bind _ (by trivial)).bind fun _ _ => ?_
  refine (globals.grounded_bind _ (by trivial)).bind fun _ _ => ?_
  refine (globals.grounded_bind _ (by trivial)).bind fun _ _ => ?_
  exact (globals.grounded_bind _ (by trivial)).bind fun _ _ => .pure trivial

theorem grounded_fresh (domain : Option DomainId) : Run.Grounded bound (fun _ _ => True) (fresh domain) := by
  cases domain with
  | some existing => exact grounded_over existing
  | none => exact (Run.grounded_newDomain standardNames).bind fun _ _ => grounded_over _

variable (environment : Environment)

theorem grounded_installHost (name : String) (header : HostHeader) {body : HostId → HostBody}
    (below : ∀ id, (body id).Below bound) :
    Run.Grounded bound (fun _ _ => True) (environment.installHost name header body) :=
  (Run.grounded_newHost below).bind fun _ _ => environment.globals.grounded_bind name (by trivial)

theorem grounded_execute (inside : environment.globals.index < bound) {code : List Step}
    (below : StepsBelow bound code) :
    Run.Grounded bound (fun _ _ => True) (environment.execute code) := by
  refine (Run.grounded_newTopFrame inside).bind fun first frame => ?_
  refine (Run.grounded_record _).bind fun second _ => ?_
  refine (grounded_runCode (frame.mono second) ((below.mono first).mono second)).bind fun _ _ => ?_
  exact Run.Grounded.get.bind fun _ _ => .pure trivial

theorem grounded_evaluate (inside : environment.globals.index < bound) {node : Node} (below : node.Below bound) :
    Run.Grounded bound (fun _ _ => True) (environment.evaluate node) :=
  (node.grounded_lower below).bind fun wider steps =>
    environment.grounded_execute (Nat.lt_of_lt_of_le inside wider) steps

end Environment

namespace Operation

def Below (bound : Nat) : Operation → Prop
  | .addDomain _ => True
  | .register _ _ _ => True
  | .addEnvironment _ => True
  | .addHost environment _ _ body => environment.globals.index < bound ∧ ∀ id, (body id).Below bound
  | .setGlobal environment _ binding => environment.globals.index < bound ∧ binding.Below bound
  | .setLimit _ => True
  | .addScope parent => ∀ scope, parent = some scope → scope.index < bound
  | .addTopFrame scope => scope.index < bound
  | .addLocalFrame parent _ => ∀ scope, parent = some scope → scope.index < bound
  | .addPromise scope body => scope.index < bound ∧ StepsBelow bound body
  | .buildLambda form parameters body => form.null.Below bound ∧ parameters.Below bound ∧ body.Below bound
  | .buildDelay _ _ children => Node.AllBelow bound children
  | .execute environment code => environment.globals.index < bound ∧ StepsBelow bound code
  | .evaluate environment node => environment.globals.index < bound ∧ node.Below bound
  | .run frame code => frame.Below bound ∧ StepsBelow bound code
  | .call target frame _ _ => target.Below bound ∧ frame.Below bound
  | .act _ actions => actions.Below (fun _ _ => True) bound

theorem grounded_perform {operation : Operation} (below : operation.Below bound) :
    Run.Grounded bound (fun _ _ => True) operation.perform := by
  have dropping {α : Type} {fit : Nat → α → Prop} {run : Run α} (grounded : Run.Grounded bound fit run) :
      Run.Grounded bound (fun _ _ => True) (do let _ ← run) :=
    grounded.bind fun _ _ => .pure trivial
  cases operation with
  | addDomain names => exact dropping (Run.grounded_newDomain names)
  | register domain tag name => exact dropping (domain.grounded_register tag name)
  | addEnvironment domain => exact dropping (Environment.grounded_fresh domain)
  | addHost environment name header body => exact environment.grounded_installHost name header below.2
  | setGlobal environment name binding => exact environment.globals.grounded_bind name below.2
  | setLimit limit => exact fun _ grounded _ => .ok (grounded.withLimit limit) trivial
  | addScope parent => exact dropping (Run.grounded_newScope below)
  | addTopFrame scope => exact dropping (Run.grounded_newTopFrame below)
  | addLocalFrame parent depth => exact dropping (Run.grounded_newLocalFrame below depth)
  | addPromise scope body => exact dropping (Run.grounded_newPromise below.1 below.2)
  | buildLambda form parameters body => exact dropping (form.grounded_build parameters body below.1)
  | buildDelay domain name children => exact dropping (Node.grounded_buildDelay domain name below)
  | execute environment code => exact dropping (environment.grounded_execute below.1 below.2)
  | evaluate environment node => exact dropping (environment.grounded_evaluate below.1 below.2)
  | run frame code => exact grounded_runCode below.1 below.2
  | call target frame args returns => exact Callable.grounded_call below.1 below.2 args returns
  | act budget actions => exact Program.grounded_run (Machine.grounded_within budget) below

/-- Each of the operations refers only to scopes that there are when its turn comes. -/
def Feasible : List Operation → State → Prop
  | [], _ => True
  | operation :: rest, state => operation.Below state.scopes.size ∧ Feasible rest (operation.perform.after state)

end Operation

theorem State.Grounded.through {operations : List Operation} {state : State} (grounded : state.Grounded)
    (feasible : Operation.Feasible operations state) : (State.through operations state).Grounded := by
  induction operations generalizing state with
  | nil => exact grounded
  | cons operation rest ih =>
      exact ih ((Operation.grounded_perform feasible.1).after grounded).grounded feasible.2

def Activity.Below (bound : Nat) : Activity → Prop
  | .call target frame _ _ => target.Below bound ∧ frame.Below bound
  | .body target frame _ _ => target.Below bound ∧ frame.Below bound
  | .step frame single => frame.Below bound ∧ single.Below bound
  | .steps frame code => frame.Below bound ∧ StepsBelow bound code
  | .program actions => actions.Below (fun _ _ => True) bound
  | .action single => single.Below bound

namespace Moment

variable {whole inner : Moment}

structure Grounded (moment : Moment) : Prop where
  state : moment.state.Grounded
  activity : moment.activity.Below moment.state.scopes.size

-- What a part goes on from may have been reached by a run of its own, which has kept the state grounded.
theorem Grounded.part (grounded : whole.Grounded) (starts : whole.Starts inner) : inner.Grounded := by
  obtain ⟨holds, below⟩ := grounded
  cases starts with
  | body admitted => exact ⟨holds, below⟩
  | closure entered =>
      obtain ⟨extended, inside⟩ := (grounded_enterClosure below.1.1 _ _).of_ok holds entered
      exact ⟨extended.grounded, inside, below.1.2.mono extended.grows⟩
  | @promise budget id frame args returns state opened start pending entered =>
      have promised := holds.promise id
      obtain ⟨extended, inside⟩ :=
        (grounded_enterPromise (fun parent same => promised.scope same) _).of_ok holds entered
      exact ⟨extended.grounded, inside, promised.body.mono extended.grows⟩
  | force popped expected =>
      obtain ⟨first, argument⟩ := (StackId.grounded_pop _).of_ok holds popped
      obtain ⟨second, target⟩ := (Value.grounded_expect argument _ _).of_ok first.grounded expected
      exact ⟨second.grounded, target, below.2.mono (first.trans second).grows⟩
  | host => exact ⟨holds, holds.host _ _ _ _ _ (Nat.le_refl _) below.2⟩
  | got bound => exact ⟨holds, holds.lookup? bound, below.1⟩
  | named bound resolved =>
      obtain ⟨extended, target⟩ := (Binding.grounded_callee (holds.lookup? bound) _).of_ok holds resolved
      exact ⟨holds, target, below.1⟩
  | first => exact ⟨holds, below.1, below.2.1⟩
  | rest executed =>
      obtain ⟨extended, -⟩ :=
        (Step.grounded_execute (Callable.grounded_callWithin _) below.1 below.2.1).of_ok holds executed
      exact ⟨extended.grounded, below.1.mono extended.grows, below.2.2.mono extended.grows⟩
  | asked => exact ⟨holds, below⟩
  | ran => exact ⟨holds, below.2, below.1⟩
  | acts => exact ⟨holds, below.1⟩
  | attempts => exact ⟨holds, below.1⟩
  | next performed =>
      obtain ⟨extended, reply⟩ :=
        (Action.grounded_perform (Machine.grounded_within _) below.1).of_ok holds performed
      exact ⟨extended.grounded, below.2 _ _ extended.grows reply⟩
  | goesOn attempted =>
      obtain ⟨extended, outcome⟩ :=
        (Action.grounded_perform (Machine.grounded_within _) below.1).outcome.of_ok holds attempted
      exact ⟨extended.grounded, below.2 _ _ extended.grows outcome⟩

theorem Grounded.reached (grounded : whole.Grounded) (reached : whole.Reaches inner) : inner.Grounded := by
  induction reached with
  | here => exact grounded
  | inside starts _ ih => exact ih (grounded.part starts)

end Moment

theorem Operation.Begins.grounded {operation : Operation} {state : State} {moment : Moment}
    (begins : operation.Begins state moment) (holds : state.Grounded) (below : operation.Below state.scopes.size) :
    moment.Grounded := by
  induction begins with
  | execute => exact ⟨(holds.newStack.grounded.record _).grounded, below⟩
  | evaluate lowered _ ih =>
      obtain ⟨extended, steps⟩ := (Node.grounded_lower _ below.2).of_ok holds lowered
      exact ih extended.grounded ⟨Nat.lt_of_lt_of_le below.1 extended.grows, steps⟩
  | run => exact ⟨holds, below⟩
  | call => exact ⟨holds, below⟩
  | act => exact ⟨holds, below⟩

/-- Whatever comes up in the course of feasible operations is grounded. -/
theorem Operation.Arises.grounded {operations : List Operation} {state : State} {moment : Moment}
    (arises : Operation.Arises operations state moment) (holds : state.Grounded)
    (feasible : Operation.Feasible operations state) : moment.Grounded := by
  induction arises with
  | now reached =>
      obtain ⟨first, begins, inside⟩ := reached
      exact (begins.grounded holds feasible.1).reached inside
  | later _ ih =>
      exact ih ((Operation.grounded_perform feasible.1).after holds).grounded feasible.2

end LazyStack
