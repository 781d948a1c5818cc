import LazyStack.Proofs.Shape
import LazyStack.Proofs.Uniformity

/-!
Reference to scopes. Something lies below a number if all scopes that it leads to have smaller numbers, so what lies
below the number of scopes leads to scopes that there are. A state is grounded if that holds of all it holds, and if
each scope lies within an older one only. Hosts can name a scope if they were made over it, or find it in their frame
or in a reply.
-/

namespace LazyStack

section Below

variable (bound : Nat)

mutual

def Value.Below : Value → Prop
  | ⟨_, _, payload, _⟩ => payload.Below

def Payload.Below : Payload → Prop
  | .cell head tail => head.Below ∧ tail.Below
  | .code steps => StepsBelow steps
  | .callable target => target.Below
  | _ => True

def Callable.Below : Callable → Prop
  | .closure scope body _ => scope.index < bound ∧ StepsBelow body
  | _ => True

def StepsBelow : List Step → Prop
  | [] => True
  | step :: rest => step.Below ∧ StepsBelow rest

def Step.Below : Step → Prop
  | .push value => value.Below
  | _ => True

end

def Binding.Below : Binding → Prop
  | .value held => held.Below bound
  | .callable target => target.Below bound

structure Promise.Below (promise : Promise) : Prop where
  scope {scope : ScopeId} : promise.scope = some scope → scope.index < bound
  body : StepsBelow bound (promise.body.getD [])
  value {value : Value} : promise.value = some value → value.Below bound

def Frame.Below (frame : Frame) : Prop :=
  frame.scope.index < bound

def Action.Below : Action → Prop
  | .push _ value => value.Below bound
  | .bind scope _ binding => scope.index < bound ∧ binding.Below bound
  | .rebind scope _ binding => scope.index < bound ∧ binding.Below bound
  | .call target frame _ _ => target.Below bound ∧ frame.Below bound
  | .run code frame => StepsBelow bound code ∧ frame.Below bound
  | .newScope parent => ∀ scope, parent = some scope → scope.index < bound
  | .newPromise scope body => scope.index < bound ∧ StepsBelow bound body
  | .keep _ frame => frame.Below bound
  | .create _ _ payload => payload.Below bound
  | .expect value _ _ => value.Below bound
  | .valueText value => value.Below bound
  | .scopeText scope => scope.index < bound
  | _ => True

def Action.ReplyBelow : (action : Action) → action.Reply → Prop
  | .pop _, value => value.Below bound
  | .popMany _ _, values => ∀ value ∈ values, value.Below bound
  | .create _ _ _, value => value.Below bound
  | .nullOf _, value => value.Below bound
  | .expect _ _ _, payload => payload.Below bound
  | .newScope _, scope => scope.index < bound
  | .kept _, frames => ∀ frame ∈ frames, frame.Below bound
  | .newStack, _ => True
  | .newPromise _ _, _ => True
  | .keep _ _, _ => True
  | .push _ _, _ => True
  | .bind _ _ _, _ => True
  | .rebind _ _ _, _ => True
  | .call _ _ _ _, _ => True
  | .run _ _, _ => True
  | .count _, _ => True
  | .valueText _, _ => True
  | .scopeText _, _ => True

end Below

/-- A program asks for nothing but what it can refer to, now and after any replies. -/
def Program.Below {α : Type} (fit : Nat → α → Prop) : Program α → Nat → Prop
  | .done result, bound => fit bound result
  | .fail _, _ => True
  | .act action next, bound =>
      action.Below bound ∧ ∀ more reply, bound ≤ more → action.ReplyBelow more reply → (next reply).Below fit more
  | .attempt action next, bound =>
      action.Below bound ∧ ∀ more outcome, bound ≤ more →
        (∀ reply, outcome = .ok reply → action.ReplyBelow more reply) → (next outcome).Below fit more

def HostBody.Below (bound : Nat) (body : HostBody) : Prop :=
  ∀ more frame args returns, bound ≤ more → Frame.Below more frame →
    (body frame args returns).Below (fun _ _ => True) more

structure State.Grounded (state : State) : Prop where
  older {scope parent : ScopeId} : (state.scope scope).parent = some parent → parent.index < scope.index
  bindings {scope : ScopeId} {name : String} {binding : Binding} :
    (state.scope scope).bindings.get? name = some binding → binding.Below state.scopes.size
  operands {stack : StackId} {value : Value} : value ∈ state.operands stack → value.Below state.scopes.size
  promise (id : PromiseId) : (state.promise id).Below state.scopes.size
  null (domain : DomainId) : (state.domain domain).null.Below state.scopes.size
  host (id : HostId) : (state.hostBody id).Below state.scopes.size
  kept {id : HostId} {frame : Frame} : frame ∈ (state.memory id).frames → frame.Below state.scopes.size

section Wider

variable {bound more : Nat}

mutual

theorem Value.Below.mono (wider : bound ≤ more) : ∀ {value : Value}, value.Below bound → value.Below more
  | ⟨_, _, _, _⟩, below => Payload.Below.mono wider below

theorem Payload.Below.mono (wider : bound ≤ more) :
    ∀ {payload : Payload}, payload.Below bound → payload.Below more
  | .cell _ _, below => ⟨Value.Below.mono wider below.1, Value.Below.mono wider below.2⟩
  | .code _, below => StepsBelow.mono wider below
  | .callable _, below => Callable.Below.mono wider below
  | .null _, _ | .bool _, _ | .int _, _ | .float _, _ | .text _, _ | .symbol _, _ | .bytes _, _ => trivial

theorem Callable.Below.mono (wider : bound ≤ more) :
    ∀ {target : Callable}, target.Below bound → target.Below more
  | .closure _ _ _, below => ⟨Nat.lt_of_lt_of_le below.1 wider, StepsBelow.mono wider below.2⟩
  | .promise _, _ | .makeClosure _, _ | .delay, _ | .force, _ | .isPromise, _ | .host _ _, _ => trivial

theorem StepsBelow.mono (wider : bound ≤ more) :
    ∀ {steps : List Step}, StepsBelow bound steps → StepsBelow more steps
  | [], _ => trivial
  | _ :: _, below => ⟨Step.Below.mono wider below.1, StepsBelow.mono wider below.2⟩

theorem Step.Below.mono (wider : bound ≤ more) : ∀ {step : Step}, step.Below bound → step.Below more
  | .push _, below => Value.Below.mono wider below
  | .get _, _ | .call _ _ _, _ | .note _, _ => trivial

end

variable (wider : bound ≤ more)
include wider

theorem Binding.Below.mono {binding : Binding} (below : binding.Below bound) : binding.Below more := by
  cases binding with
  | value => exact Value.Below.mono wider below
  | callable => exact Callable.Below.mono wider below

theorem Promise.Below.mono {promise : Promise} (below : promise.Below bound) : promise.Below more where
  scope inside := Nat.lt_of_lt_of_le (below.scope inside) wider
  body := below.body.mono wider
  value held := (below.value held).mono wider

theorem Frame.Below.mono {frame : Frame} (below : frame.Below bound) : frame.Below more :=
  Nat.lt_of_lt_of_le below wider

theorem HostBody.Below.mono {body : HostBody} (below : body.Below bound) : body.Below more :=
  fun beyond frame args returns further => below beyond frame args returns (Nat.le_trans wider further)

end Wider

variable {bound : Nat}

theorem stepsBelow_append {first second : List Step} :
    StepsBelow bound (first ++ second) ↔ StepsBelow bound first ∧ StepsBelow bound second := by
  induction first with
  | nil => simp [StepsBelow]
  | cons step rest ih => simp [StepsBelow, ih, and_assoc]

theorem Value.Below.payload {value : Value} (below : value.Below bound) : value.payload.Below bound := by
  cases value
  exact below

theorem Payload.Below.steps {payload : Payload} (below : payload.Below bound) : StepsBelow bound payload.steps := by
  cases payload with
  | code => exact below
  | _ => trivial

namespace Program

variable {α β : Type} {frame : Frame}

theorem Below.bind {fit : Nat → α → Prop} {suits : Nat → β → Prop} {program : Program α} {next : α → Program β}
    (first : program.Below fit bound)
    (later : ∀ {more result}, bound ≤ more → fit more result → (next result).Below suits more) :
    (program >>= next).Below suits bound := by
  induction program generalizing bound with
  | done result => exact later (Nat.le_refl bound) first
  | fail => trivial
  | act action next ih =>
      refine ⟨first.1, fun more reply wider fits => ih reply (first.2 more reply wider fits) ?_⟩
      exact fun further => later (Nat.le_trans wider further)
  | attempt action next ih =>
      refine ⟨first.1, fun more outcome wider fits => ih outcome (first.2 more outcome wider fits) ?_⟩
      exact fun further => later (Nat.le_trans wider further)

theorem below_perform (action : Action) (asked : action.Below bound) :
    (perform action).Below (fun more => action.ReplyBelow more) bound :=
  ⟨asked, fun _ _ _ fits => fits⟩

theorem below_pop : (pop frame).Below (fun more value => value.Below more) bound :=
  below_perform (.pop frame.stack) trivial

theorem below_popMany (count : Int) :
    (popMany frame count).Below (fun more values => ∀ value ∈ values, value.Below more) bound :=
  below_perform (.popMany frame.stack count) trivial

theorem below_push {value : Value} (below : value.Below bound) :
    (push frame value).Below (fun _ _ => True) bound :=
  below_perform (.push frame.stack value) below

theorem below_create (domain : DomainId) (tag : Tag) {payload : Payload} (below : payload.Below bound) :
    (create domain tag payload).Below (fun more value => value.Below more) bound :=
  below_perform (.create domain tag payload) below

theorem below_expect (tag : Tag) (description : String) {value : Value} (below : value.Below bound) :
    (expect value tag description).Below (fun more payload => payload.Below more) bound :=
  below_perform (.expect value tag description) below

theorem below_call (args returns : Int) (inside : frame.Below bound) {payload : Payload}
    (below : payload.Below bound) : (call frame args returns payload).Below (fun _ _ => True) bound := by
  cases payload with
  | callable target => exact below_perform (.call target frame (some args) (some returns)) ⟨below, inside⟩
  | _ => trivial

theorem below_unary {apply : Value → Program Value}
    (each : ∀ {more value}, bound ≤ more → Value.Below more value →
      (apply value).Below (fun more value => value.Below more) more) :
    (unary frame apply).Below (fun _ _ => True) bound :=
  below_pop.bind fun wider value => (each wider value).bind fun _ result => below_push result

theorem below_binary {apply : Value → Value → Program Value}
    (each : ∀ {more left right}, bound ≤ more → Value.Below more left → Value.Below more right →
      (apply left right).Below (fun more value => value.Below more) more) :
    (binary frame apply).Below (fun _ _ => True) bound :=
  below_pop.bind fun wider right => below_pop.bind fun further left =>
    (each (Nat.le_trans wider further) left (right.mono further)).bind fun _ result => below_push result

theorem below_onIntegers (tag : Tag) {apply : Int → Int → Payload}
    (plain : ∀ (one two : Int) (more : Nat), (apply one two).Below more) :
    (onIntegers frame tag apply).Below (fun _ _ => True) bound :=
  below_binary fun _ left right => (below_expect .int _ left).bind fun wider _ =>
    (below_expect .int _ (right.mono wider)).bind fun _ _ => below_create _ tag (plain _ _ _)

theorem below_onNamed (description : String) {act : ScopeId → String → Binding → Program Unit}
    (inside : frame.Below bound)
    (each : ∀ {more name binding}, frame.Below more → Binding.Below more binding →
      (act frame.scope name binding).Below (fun _ _ => True) more) :
    (onNamed frame description act).Below (fun _ _ => True) bound := by
  refine (below_popMany 2).bind fun {more values} wider below => ?_
  match values with
  | [name, value] =>
      have entered : value.Below more := below value (by simp)
      refine (below_expect .symbol description (below name (by simp))).bind fun further _ => ?_
      have named : Binding.Below _ (.value value) := entered.mono further
      refine (each ((inside.mono wider).mono further) named).bind fun beyond _ => ?_
      exact below_push ((entered.mono further).mono beyond)
  | [] => trivial
  | [_] => trivial
  | _ :: _ :: _ :: _ => trivial

theorem below_list (domain : DomainId) {items : List Value} (below : ∀ item ∈ items, item.Below bound) :
    (Program.list domain items).Below (fun more value => value.Below more) bound := by
  refine (below_perform (.nullOf domain) trivial).bind fun wider null => ?_
  induction items with
  | nil => exact null
  | cons item items ih =>
      rw [List.foldrM_cons]
      refine (ih fun other member => below other (List.mem_cons_of_mem item member)).bind fun further rest => ?_
      exact below_create domain .cell ⟨((below item List.mem_cons_self).mono wider).mono further, rest⟩

end Program

open Program

theorem LibraryHost.body_below (host : LibraryHost) (domain : DomainId) (self : HostId) (bound : Nat) :
    HostBody.Below bound (host.body domain self) := by
  intro more frame args returns _ inside
  cases host with
  | add =>
      rw [LibraryHost.body]
      exact below_onIntegers .int fun _ _ _ => trivial
  | sub =>
      rw [LibraryHost.body]
      exact below_onIntegers .int fun _ _ _ => trivial
  | mul =>
      rw [LibraryHost.body]
      exact below_onIntegers .int fun _ _ _ => trivial
  | lt =>
      rw [LibraryHost.body]
      exact below_onIntegers .bool fun _ _ _ => trivial
  | concat =>
      refine below_binary fun _ left right => ?_
      refine (below_expect .text _ left).bind fun wider _ => ?_
      exact (below_expect .text _ (right.mono wider)).bind fun _ _ => below_create _ .text trivial
  | cons => exact below_binary fun _ left right => below_create _ .cell ⟨left, right⟩
  | car =>
      refine below_unary fun _ value => ?_
      refine (below_expect .cell _ value).bind fun {_ payload} further below => ?_
      cases payload with
      | cell head tail => exact below.1
      | _ => exact value.mono further
  | cdr =>
      refine below_unary fun _ value => ?_
      refine (below_expect .cell _ value).bind fun {_ payload} further below => ?_
      cases payload with
      | cell head tail => exact below.2
      | _ => exact value.mono further
  | display =>
      refine below_unary fun _ value => ?_
      exact (below_perform (.valueText _) value).bind fun _ _ => below_create _ .text trivial
  | not =>
      refine below_unary fun _ value => ?_
      exact (below_expect .bool _ value).bind fun _ _ => below_create _ .bool trivial
  | tick =>
      refine (below_perform (.count self) trivial).bind fun _ _ => ?_
      exact (below_create domain .int (by trivial)).bind fun _ value => below_push value
  | depth => exact (below_create domain .int (by trivial)).bind fun _ value => below_push value
  | scope =>
      refine (below_perform (.scopeText frame.scope) inside).bind fun _ _ => ?_
      exact (below_create domain .text (by trivial)).bind fun _ value => below_push value
  | dup => exact below_pop.bind fun _ value => (below_push value).bind fun wider _ => below_push (value.mono wider)
  | drop => exact below_pop.bind fun _ _ => trivial
  | branch =>
      refine (below_popMany 3).bind fun {_ values} wider below => ?_
      rcases values with _ | ⟨condition, _ | ⟨yes, _ | ⟨no, _ | ⟨_, _⟩⟩⟩⟩
      case cons.cons.cons.nil =>
        refine (below_expect .bool _ (below condition (by simp))).bind fun {most truth} further _ => ?_
        have chosen : Value.Below most (if truth.truth then yes else no) := by
          split
          · exact (below yes (by simp)).mono further
          · exact (below no (by simp)).mono further
        refine (below_expect .callable _ chosen).bind fun beyond payload => ?_
        exact below_call 0 1 (((inside.mono wider).mono further).mono beyond) payload
      all_goals trivial
  | eval =>
      refine below_pop.bind fun wider value => ?_
      refine (below_expect .code _ value).bind fun further code => ?_
      exact below_perform (.run _ frame) ⟨code.steps, (inside.mono wider).mono further⟩
  | apply =>
      refine below_pop.bind fun wider value => ?_
      refine (below_expect .callable _ value).bind fun further payload => ?_
      exact below_call 1 1 ((inside.mono wider).mono further) payload
  | bind =>
      rw [LibraryHost.body]
      exact below_onNamed _ inside fun within binding => below_perform (.bind _ _ _) ⟨within, binding⟩
  | assign =>
      rw [LibraryHost.body]
      exact below_onNamed _ inside fun within binding => below_perform (.rebind _ _ _) ⟨within, binding⟩
  | list =>
      refine (below_popMany _).bind fun _ values => ?_
      exact (below_list domain values).bind fun _ value => below_push value

end LazyStack
