import LazyStack.Host.Library
import LazyStack.Proofs.Conduct
import LazyStack.Proofs.Growth

/-!
What the library hosts do. Each works on the stack of the frame that it is called on. Only two of them
call a callable, only one runs code, and only two bind, in the scope of that frame. So a law that admits
the actions of some library hosts is one that these hosts keep to wherever they are called.
-/

namespace LazyStack

namespace Program

variable {α β : Type} {law : Action → State → Prop} {budget : Nat} {state : State}

theorem Obeys.bind {program : Program α} {next : α → Program β} (first : program.Obeys law budget state)
    (rest : ∀ result middle, (next result).Obeys law budget middle) :
    (program >>= next).Obeys law budget state := by
  induction program generalizing state with
  | done result => exact rest result state
  | fail failure => exact trivial
  | act action continued ih =>
      obtain ⟨lawful, later⟩ := first
      exact ⟨lawful, fun reply middle performed => ih reply (later reply middle performed)⟩
  | attempt action continued ih =>
      obtain ⟨lawful, later⟩ := first
      exact ⟨lawful, fun outcome middle attempted => ih outcome (later outcome middle attempted)⟩

theorem obeys_perform {action : Action} (lawful : law action state) :
    (perform action).Obeys law budget state :=
  ⟨lawful, fun _ _ _ => trivial⟩

theorem obeys_foldlM {act : β → α → Program β} {items : List α} {first : β}
    (each : ∀ result item middle, (act result item).Obeys law budget middle) :
    (items.foldlM act first).Obeys law budget state := by
  induction items generalizing first state with
  | nil => exact trivial
  | cons item rest ih =>
      rw [List.foldlM_cons]
      exact (each first item state).bind fun _ _ => ih

end Program

namespace LibraryHost

inductive Takes (frame : Frame) : LibraryHost → Action → Prop
  | pop {host} : Takes frame host (.pop frame.stack)
  | popMany {host count} : Takes frame host (.popMany frame.stack count)
  | push {host value} : Takes frame host (.push frame.stack value)
  | create {host domain tag payload} : Takes frame host (.create domain tag payload)
  | nullOf {host domain} : Takes frame host (.nullOf domain)
  | expect {host value tag description} : Takes frame host (.expect value tag description)
  | count {host counted} : Takes frame host (.count counted)
  | valueText {host value} : Takes frame host (.valueText value)
  | scopeText {host scope} : Takes frame host (.scopeText scope)
  | branches {target args returns} : Takes frame .branch (.call target frame args returns)
  | applies {target args returns} : Takes frame .apply (.call target frame args returns)
  | evaluates {code} : Takes frame .eval (.run code frame)
  | binds {name binding} : Takes frame .bind (.bind frame.scope name binding)
  | assigns {name binding} : Takes frame .assign (.rebind frame.scope name binding)

section Shapes

variable {law : Action → State → Prop} {budget : Nat} {frame : Frame} {host : LibraryHost} {state : State}

theorem obeys_unary {apply : Value → Program Value}
    (applies : ∀ value middle,
      (apply value).Obeys (fun action _ => host.Takes frame action) budget middle) :
    (Program.unary frame apply).Obeys (fun action _ => host.Takes frame action) budget state := by
  refine (Program.obeys_perform .pop).bind fun value middle => ?_
  exact (applies value middle).bind fun _ _ => Program.obeys_perform .push

theorem obeys_binary {apply : Value → Value → Program Value}
    (applies : ∀ left right middle,
      (apply left right).Obeys (fun action _ => host.Takes frame action) budget middle) :
    (Program.binary frame apply).Obeys (fun action _ => host.Takes frame action) budget state := by
  refine (Program.obeys_perform .pop).bind fun right _ => ?_
  refine (Program.obeys_perform .pop).bind fun left middle => ?_
  exact (applies left right middle).bind fun _ _ => Program.obeys_perform .push

theorem obeys_onIntegers {tag : Tag} {apply : Int → Int → Payload} :
    (onIntegers frame tag apply).Obeys (fun action _ => host.Takes frame action) budget state := by
  refine obeys_binary fun left right middle => ?_
  refine (Program.obeys_perform .expect).bind fun _ _ => ?_
  exact (Program.obeys_perform .expect).bind fun _ _ => Program.obeys_perform .create

theorem obeys_call {args returns : Int} {payload : Payload}
    (calls : ∀ target, host.Takes frame (.call target frame (some args) (some returns))) :
    (Program.call frame args returns payload).Obeys (fun action _ => host.Takes frame action) budget
      state := by
  cases payload with
  | callable target => exact Program.obeys_perform (calls target)
  | _ => exact trivial

theorem obeys_onNamed {description : String} {act : ScopeId → String → Binding → Program Unit}
    (acts : ∀ name binding middle,
      (act frame.scope name binding).Obeys (fun action _ => host.Takes frame action) budget middle) :
    (onNamed frame description act).Obeys (fun action _ => host.Takes frame action) budget state := by
  refine (Program.obeys_perform .popMany).bind fun values _ => ?_
  split
  · refine (Program.obeys_perform .expect).bind fun payload middle => ?_
    exact (acts _ _ middle).bind fun _ _ => Program.obeys_perform .push
  · exact trivial

end Shapes

theorem obeys_takes (host : LibraryHost) (domain : DomainId) (self : HostId) (frame : Frame)
    (args returns : Option Int) (budget : Nat) (state : State) :
    (host.body domain self frame args returns).Obeys (fun action _ => host.Takes frame action) budget
      state := by
  cases host with
  | add =>
      rw [body]
      exact obeys_onIntegers
  | sub =>
      rw [body]
      exact obeys_onIntegers
  | mul =>
      rw [body]
      exact obeys_onIntegers
  | lt =>
      rw [body]
      exact obeys_onIntegers
  | concat =>
      refine obeys_binary fun left right middle => ?_
      refine (Program.obeys_perform .expect).bind fun _ _ => ?_
      exact (Program.obeys_perform .expect).bind fun _ _ => Program.obeys_perform .create
  | cons => exact obeys_binary fun left right middle => Program.obeys_perform .create
  | car =>
      refine obeys_unary fun value middle => ?_
      refine (Program.obeys_perform .expect).bind fun payload _ => ?_
      split <;> exact trivial
  | cdr =>
      refine obeys_unary fun value middle => ?_
      refine (Program.obeys_perform .expect).bind fun payload _ => ?_
      split <;> exact trivial
  | display =>
      refine obeys_unary fun value middle => ?_
      exact (Program.obeys_perform .valueText).bind fun _ _ => Program.obeys_perform .create
  | not =>
      refine obeys_unary fun value middle => ?_
      exact (Program.obeys_perform .expect).bind fun _ _ => Program.obeys_perform .create
  | tick =>
      refine (Program.obeys_perform .count).bind fun count _ => ?_
      exact (Program.obeys_perform .create).bind fun _ _ => Program.obeys_perform .push
  | depth => exact (Program.obeys_perform .create).bind fun _ _ => Program.obeys_perform .push
  | scope =>
      refine (Program.obeys_perform .scopeText).bind fun text _ => ?_
      exact (Program.obeys_perform .create).bind fun _ _ => Program.obeys_perform .push
  | dup =>
      refine (Program.obeys_perform .pop).bind fun value _ => ?_
      exact (Program.obeys_perform .push).bind fun _ _ => Program.obeys_perform .push
  | drop => exact (Program.obeys_perform .pop).bind fun _ _ => trivial
  | branch =>
      refine (Program.obeys_perform .popMany).bind fun values _ => ?_
      split
      · refine (Program.obeys_perform .expect).bind fun condition _ => ?_
        refine (Program.obeys_perform .expect).bind fun payload _ => ?_
        exact obeys_call fun _ => .branches
      · exact trivial
  | eval =>
      refine (Program.obeys_perform .pop).bind fun value _ => ?_
      refine (Program.obeys_perform .expect).bind fun code _ => ?_
      exact Program.obeys_perform .evaluates
  | apply =>
      refine (Program.obeys_perform .pop).bind fun value _ => ?_
      refine (Program.obeys_perform .expect).bind fun payload _ => ?_
      exact obeys_call fun _ => .applies
  | bind =>
      rw [body]
      exact obeys_onNamed fun _ _ _ => Program.obeys_perform Takes.binds
  | assign =>
      rw [body]
      exact obeys_onNamed fun _ _ _ => Program.obeys_perform Takes.assigns
  | list =>
      refine (Program.obeys_perform .popMany).bind fun values _ => ?_
      refine Program.Obeys.bind ?_ fun _ _ => Program.obeys_perform .push
      refine (Program.obeys_perform .nullOf).bind fun null _ => ?_
      exact Program.obeys_foldlM fun _ _ _ => Program.obeys_perform .create

end LibraryHost

theorem Program.Obeys.mono {α : Type} {law wider : Action → State → Prop} {budget : Nat}
    {program : Program α} {state : State} (obeys : program.Obeys law budget state)
    (weaker : ∀ action reached, law action reached → wider action reached) :
    program.Obeys wider budget state := by
  induction program generalizing state with
  | done result => exact trivial
  | fail failure => exact trivial
  | act action next ih =>
      obtain ⟨lawful, later⟩ := obeys
      exact ⟨weaker _ _ lawful, fun reply middle performed => ih _ (later reply middle performed)⟩
  | attempt action next ih =>
      obtain ⟨lawful, later⟩ := obeys
      exact ⟨weaker _ _ lawful, fun outcome middle attempted => ih _ (later outcome middle attempted)⟩

/-- Hosts of the library keep to every law that admits what they do. -/
theorem Moment.hostsObey_of_hosts {law : Frame → Action → State → Prop} {whole : Moment}
    (each : ∀ body ∈ whole.state.hosts, ∀ frame args returns budget state,
      Program.Obeys (law frame) budget (body frame args returns) state) : whole.HostsObey law := by
  intro budget id header frame args returns state reached
  rw [State.hostBody, (State.Grows.of_reaches reached).hosts]
  cases present : whole.state.hosts[id.index]? with
  | none => exact trivial
  | some body => exact each body (Array.mem_of_getElem? present) frame args returns budget state

theorem Moment.hostsObey_of_library {law : Frame → Action → State → Prop} {whole : Moment}
    (library : ∀ body ∈ whole.state.hosts, ∃ host domain self, body = LibraryHost.body domain self host ∧
      ∀ frame action state, host.Takes frame action → law frame action state) :
    whole.HostsObey law := by
  refine hostsObey_of_hosts fun body member frame args returns budget state => ?_
  obtain ⟨host, domain, self, same, lawful⟩ := library body member
  subst same
  exact (host.obeys_takes domain self frame args returns budget state).mono (lawful frame)

end LazyStack
