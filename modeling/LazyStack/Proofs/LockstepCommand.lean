import LazyStack.Proofs.LockstepWork

/-!
Every command in lockstep. A command that is described in plain data has one and the same reply, or fails with
the same words, wherever its environment and the registers are alike. Registering a name and changing the limit
on depth are the only commands that unsettle others.
-/

namespace LazyStack

def Command.Plain : Command → Prop
  | .evaluate spec _ => spec.Plain
  | .define _ spec => spec.Plain
  | .set _ spec _ => spec.Plain
  | .script _ _ _ specs => ∀ spec ∈ specs, spec.Plain
  | .compile spec _ => spec.Plain
  | .code specs _ => ∀ spec ∈ specs, spec.Plain
  | .quote spec _ => spec.Plain
  | .executeStep spec _ => spec.Plain
  | .callValue spec _ _ _ => spec.Plain
  | .node spec => spec.Plain
  | .value spec _ => spec.Plain
  | .display spec => spec.Plain
  | .format spec _ _ => spec.Plain
  | .tags spec => spec.Plain
  | .expect spec _ _ => spec.Plain
  | .mutate spec _ => spec.Plain
  | .list spec => spec.Plain
  | .parameterNames spec => spec.Plain
  | .wrapHere spec _ => spec.Plain
  | .create _ _ spec _ => spec.Plain
  | .wrap _ spec _ => spec.Plain
  | .put _ _ spec => spec.Plain
  | .rebind _ _ spec => spec.Plain
  | .push _ specs => ∀ spec ∈ specs, spec.Plain
  | _ => True

/-- A command that neither registers a name nor changes the limit on depth. -/
def Command.Settled : Command → Prop
  | .register _ _ _ => False
  | .limit _ => False
  | _ => True

variable {settled : Prop} {pairs : Counterparts}

theorem Work.lockstep_shown {α : Type} {shown other : Written α} (reply : α → Reply) (same : shown = other) :
    Work.Lockstep settled pairs (Counterparts.Same : Counterparts → Reply → Reply → Prop)
      (do return reply (← Run.written shown)) (do return reply (← Run.written other)) :=
  (Lockstep.lift (Run.Lockstep.written same)).bind fun _ text => .pure (congrArg reply text)

abbrev Command.RepliesAlike (settled : Prop) (pairs : Counterparts) (environment other : Environment)
    (command : Command) : Prop :=
  Work.Lockstep settled pairs Counterparts.Same (command.perform environment) (command.perform other)

namespace Command

open Work

section Build

variable {environment other : Environment} (alike : environment.Mirrors pairs other)
include alike

theorem ingredients {registers others : Registers} (same : registers.Mirrors pairs others) :
    Ingredients pairs registers others environment.globals other.globals environment.domain other.domain :=
  ⟨same, alike.globals, alike.domain⟩

theorem lockstep_buildValue {spec : ValueSpec} (plain : spec.Plain) :
    Work.Lockstep settled pairs Value.Mirrors (buildValue environment spec) (buildValue other spec) :=
  Lockstep.registers.bind fun within same =>
    .lift (ValueSpec.lockstep_build (ingredients (alike.mono within) same) spec plain)

theorem lockstep_buildPayload {spec : PayloadSpec} (plain : spec.Plain) :
    Work.Lockstep settled pairs Payload.Mirrors (buildPayload environment spec) (buildPayload other spec) :=
  Lockstep.registers.bind fun within same =>
    .lift (PayloadSpec.lockstep_build (ingredients (alike.mono within) same) spec plain)

theorem lockstep_buildNode {spec : NodeSpec} (plain : spec.Plain) :
    Work.Lockstep settled pairs Node.Mirrors (buildNode environment spec) (buildNode other spec) :=
  Lockstep.registers.bind fun within same =>
    .lift (NodeSpec.lockstep_build (ingredients (alike.mono within) same) spec plain)

theorem lockstep_buildStep {spec : StepSpec} (plain : spec.Plain) :
    Work.Lockstep settled pairs Step.Mirrors (buildStep environment spec) (buildStep other spec) :=
  Lockstep.registers.bind fun within same =>
    .lift (StepSpec.lockstep_build (ingredients (alike.mono within) same) spec plain)

theorem lockstep_pushAll {stack like : StackId} (paired : pairs (.stack stack) (.stack like))
    {specs : List ValueSpec} (plain : ∀ spec ∈ specs, spec.Plain) :
    Work.Lockstep settled pairs Counterparts.Always (pushAll environment stack specs)
      (pushAll other like specs) := by
  induction specs generalizing pairs with
  | nil => exact .pure trivial
  | cons spec rest ih =>
      rw [pushAll, pushAll]
      refine (lockstep_buildValue alike (plain spec List.mem_cons_self)).bind fun first value => ?_
      refine (Lockstep.lift (StackId.lockstep_push (first paired) value)).bind fun second _ => ?_
      exact ih ((alike.mono first).mono second) (second (first paired))
        fun later member => plain later (List.mem_cons_of_mem spec member)

end Build

section Each

variable {environment other : Environment} (alike : environment.Mirrors pairs other)
include alike

theorem lockstep_evaluate {spec : NodeSpec} (plain : spec.Plain) (names : List String) :
    RepliesAlike settled pairs environment other (.evaluate spec names) := by
  have keep {near : Counterparts} {values others : List Value} (same : Value.AllMirror near values others) :
      Work.Lockstep settled near Counterparts.Always
        ((names.zip values).forM fun entry => Work.keepValue (some entry.1) entry.2)
        ((names.zip others).forM fun entry => Work.keepValue (some entry.1) entry.2) := by
    induction names generalizing values others near with
    | nil => exact .pure trivial
    | cons name names ih =>
        cases same with
        | nil => exact .pure trivial
        | cons first rest =>
            exact (lockstep_keepValue (some name) first).bind fun within _ =>
              ih (Value.AllMirror.mono within rest)
  refine (lockstep_buildNode alike plain).bind fun first node => ?_
  refine (Lockstep.lift (Environment.lockstep_evaluate (alike.mono first) node)).bind fun _ values => ?_
  refine (keep values).bind fun second _ => ?_
  exact .lift (Run.lockstep_summaries (Value.AllMirror.mono second values))

theorem lockstep_define {spec : NodeSpec} (plain : spec.Plain) (name : String) :
    RepliesAlike settled pairs environment other (.define name spec) := by
  refine (lockstep_buildNode alike plain).bind fun first node => ?_
  refine (Lockstep.lift (Environment.lockstep_evaluate (alike.mono first) node)).bind fun second values => ?_
  cases values with
  | nil => exact .lift (Run.lockstep_summaries .nil)
  | cons value rest =>
      cases rest with
      | nil =>
          refine (Lockstep.lift (ScopeId.lockstep_bind (second (first alike.globals)) name (.value value))).bind
            fun third _ => ?_
          exact .lift (Run.lockstep_summaries (.cons (value.mono third) .nil))
      | cons further rest => exact .lift (Run.lockstep_summaries (.cons value (.cons further rest)))

theorem lockstep_set {spec : ValueSpec} (plain : spec.Plain) (name : Literal) (bare : Bool) :
    RepliesAlike settled pairs environment other (.set name spec bare) := by
  refine (lockstep_buildValue alike plain).bind fun {near value like} first same => ?_
  have refused {payload datum : Payload} (unusable : payload.Mirrors near datum) :
      Work.Lockstep settled near (Counterparts.Same : Counterparts → Reply → Reply → Prop)
        (do throw (.worded (.unusableGlobal name.bare) ((← getThe State).payloadQuoted payload)))
        (do throw (.worded (.unusableGlobal name.bare) ((← getThe State).payloadQuoted datum))) := by
    refine Lockstep.state.bind fun within mirrors => ?_
    rw [mirrors.payloadQuoted_eq (unusable.mono within)]
    exact .throw _
  cases bare with
  | false => exact .lift (Run.lockstep_setReply (alike.mono first) name (.value same))
  | true =>
      have payload := same.payload
      rw [if_pos rfl, if_pos rfl]
      generalize value.payload = content at payload
      generalize like.payload = datum at payload
      cases payload with
      | callable target => exact .lift (Run.lockstep_setReply (alike.mono first) name (.callable target))
      | null => exact refused .null
      | bool => exact refused .bool
      | int => exact refused .int
      | float => exact refused .float
      | text => exact refused .text
      | symbol => exact refused .symbol
      | bytes => exact refused .bytes
      | cell head tail => exact refused (.cell head tail)
      | code steps => exact refused (.code steps)

theorem lockstep_buildValues {specs : List ValueSpec} (plain : ∀ spec ∈ specs, spec.Plain) :
    Work.Lockstep settled pairs (fun wider => List.Forall₂ (Value.Mirrors wider))
      (specs.mapM (buildValue environment)) (specs.mapM (buildValue other)) :=
  lockstep_mapM (fun within known => known.mono within) fun member within =>
    lockstep_buildValue (alike.mono within) (plain _ member)

theorem lockstep_script {specs : List ValueSpec} (plain : ∀ spec ∈ specs, spec.Plain) (name : String)
    (signature : Signature) (pops : Int) :
    RepliesAlike settled pairs environment other (.script name signature pops specs) := by
  refine (lockstep_buildValues alike plain).bind fun first values => ?_
  refine (Lockstep.lift (Environment.lockstep_installHost (alike.mono first) name (scriptedHeader signature)
    fun within _ _ => scriptedBody_mirrors pops.toNat (Value.AllMirror.mono within values))).bind fun _ _ => ?_
  exact .pure rfl

theorem lockstep_code {specs : List StepSpec} (plain : ∀ spec ∈ specs, spec.Plain) (name : Option String) :
    RepliesAlike settled pairs environment other (.code specs name) := by
  have built : Work.Lockstep settled pairs (fun wider => List.Forall₂ (Step.Mirrors wider))
      (specs.mapM (buildStep environment)) (specs.mapM (buildStep other)) :=
    lockstep_mapM (fun within known => known.mono within) fun member within =>
      lockstep_buildStep (alike.mono within) (plain _ member)
  refine built.bind fun first steps => ?_
  have code := Code.Mirrors.of_forall steps
  refine (lockstep_keepCode name code).bind fun second _ => ?_
  exact .lift (Run.lockstep_codeReply (code.mono second))

theorem lockstep_callValue {spec : ValueSpec} (plain : spec.Plain) (name : String) (args returns : Option Int) :
    RepliesAlike settled pairs environment other (.callValue spec name args returns) := by
  refine (Work.lockstep_frame name).bind fun first frames => ?_
  refine (lockstep_buildValue (alike.mono first) plain).bind fun second value => ?_
  refine (Lockstep.lift (Value.lockstep_expect value .callable _)).bind fun third payload => ?_
  cases payload with
  | callable target =>
      have caller := (frames.mono second).mono third
      exact .lift (Run.lockstep_onFrame caller (Callable.lockstep_call target caller))
  | _ => exact .pure rfl

theorem lockstep_wrap {payload : PayloadSpec} (plain : payload.Plain) (key : String) (name : Option String) :
    RepliesAlike settled pairs environment other (.wrap key payload name) := by
  refine (lockstep_buildPayload alike plain).bind fun first same => ?_
  refine (Work.lockstep_domain key).bind fun second paired => ?_
  refine (Lockstep.lift (DomainId.lockstep_wrap paired (same.mono second))).bind fun third value => ?_
  refine (lockstep_keepValue name value).bind fun fourth _ => ?_
  refine Lockstep.state.bind fun fifth mirrors => ?_
  have known := (value.mono fourth).mono fifth
  rw [value.tag_eq]
  exact Work.lockstep_shown (.wrapped · _) (mirrors.summarize_eq known)

theorem lockstep_alias (name target : String) :
    RepliesAlike settled pairs environment other (.alias name target) := by
  refine (Lockstep.lift (ScopeId.lockstep_lookup alike.globals target)).bind fun first found => ?_
  refine (Lockstep.lift (ScopeId.lockstep_bind (first alike.globals) name found)).bind fun _ _ => ?_
  exact .pure rfl

theorem lockstep_global (name : String) : RepliesAlike settled pairs environment other (.global name) := by
  refine (Lockstep.lift (ScopeId.lockstep_lookup alike.globals name)).bind fun _ found => ?_
  exact .lift (Run.lockstep_bindingSummary found)

theorem lockstep_compile {spec : NodeSpec} (plain : spec.Plain) (name : Option String) :
    RepliesAlike settled pairs environment other (.compile spec name) := by
  refine (lockstep_buildNode alike plain).bind fun first node => ?_
  refine (Lockstep.lift node.lockstep_lower).bind fun second steps => ?_
  refine (lockstep_keepCode name steps).bind fun third _ => ?_
  exact .lift (Run.lockstep_codeReply (steps.mono third))

theorem lockstep_quote {spec : NodeSpec} (plain : spec.Plain) (name : Option String) :
    RepliesAlike settled pairs environment other (.quote spec name) := by
  refine (lockstep_buildNode alike plain).bind fun first node => ?_
  refine (Lockstep.lift (node.lockstep_quote (first alike.domain))).bind fun second value => ?_
  refine (lockstep_keepValue name value).bind fun third _ => ?_
  exact .lift (Run.lockstep_summary (value.mono third))

theorem lockstep_execute (source : String) : RepliesAlike settled pairs environment other (.execute source) := by
  refine (lockstep_codeSteps source).bind fun first code => ?_
  refine (Lockstep.lift (Environment.lockstep_execute (alike.mono first) code)).bind fun second values => ?_
  exact .lift (Run.lockstep_summaries values)

theorem lockstep_topFrame (name : String) : RepliesAlike settled pairs environment other (.topFrame name) := by
  refine (Lockstep.lift (Run.lockstep_newTopFrame alike.globals)).bind fun _ frames => ?_
  exact lockstep_keepFrame name frames

theorem lockstep_executeStep {spec : StepSpec} (plain : spec.Plain) (name : String) :
    RepliesAlike settled pairs environment other (.executeStep spec name) := by
  refine (lockstep_buildStep alike plain).bind fun first step => ?_
  refine (Work.lockstep_frame name).bind fun second frames => ?_
  have code := Code.Mirrors.cons (step.mono second) .nil
  exact .lift (Run.lockstep_onFrame frames (lockstep_runCode frames code))

theorem lockstep_callNamed (callee name : String) (args returns : Option Int) :
    RepliesAlike settled pairs environment other (.callNamed callee name args returns) := by
  refine (Work.lockstep_frame name).bind fun first frames => ?_
  refine (Lockstep.lift (ScopeId.lockstep_lookup (first alike.globals) callee)).bind fun second found => ?_
  refine (Lockstep.lift (Binding.lockstep_callee found callee)).bind fun third target => ?_
  have caller := (frames.mono second).mono third
  exact .lift (Run.lockstep_onFrame caller (Callable.lockstep_call target caller))

theorem lockstep_value {spec : ValueSpec} (plain : spec.Plain) (name : Option String) :
    RepliesAlike settled pairs environment other (.value spec name) := by
  refine (lockstep_buildValue alike plain).bind fun first value => ?_
  refine (lockstep_keepValue name value).bind fun second _ => ?_
  exact .lift (Run.lockstep_summary (value.mono second))

theorem lockstep_display {spec : ValueSpec} (plain : spec.Plain) :
    RepliesAlike settled pairs environment other (.display spec) := by
  refine (lockstep_buildValue alike plain).bind fun first value => ?_
  refine Lockstep.state.bind fun second mirrors => ?_
  have known := value.mono second
  rw [mirrors.valueText_eq known, mirrors.valueTagged_eq known, mirrors.payloadQuoted_eq known.payload]
  refine (Lockstep.lift (Run.Lockstep.written rfl)).bind fun _ text => ?_
  refine (Lockstep.lift (Run.Lockstep.written rfl)).bind fun _ tagged => ?_
  rw [text, tagged]
  exact Work.lockstep_shown (.value _ _) rfl

theorem lockstep_format {spec : ValueSpec} (plain : spec.Plain) (maxDepth maxItems : Option Int) :
    RepliesAlike settled pairs environment other (.format spec maxDepth maxItems) := by
  refine (lockstep_buildValue alike plain).bind fun first value => ?_
  refine Lockstep.state.bind fun second mirrors => ?_
  exact Work.lockstep_shown .text ((value.mono second).text_eq mirrors.naming _ 0)

theorem lockstep_tags {spec : ValueSpec} (plain : spec.Plain) :
    RepliesAlike settled pairs environment other (.tags spec) := by
  refine (lockstep_buildValue alike plain).bind fun _ value => ?_
  rw [value.tag_eq]
  exact .pure rfl

theorem lockstep_expect {spec : ValueSpec} (plain : spec.Plain) (tag : Tag) (description : String) :
    RepliesAlike settled pairs environment other (.expect spec tag description) := by
  refine (lockstep_buildValue alike plain).bind fun _ value => ?_
  refine (Lockstep.lift (Value.lockstep_expect value tag description)).bind fun within _ => ?_
  exact .lift (Run.lockstep_summary (value.mono within))

theorem lockstep_list {spec : ValueSpec} (plain : spec.Plain) :
    RepliesAlike settled pairs environment other (.list spec) := by
  refine (lockstep_buildValue alike plain).bind fun _ value => ?_
  refine (Lockstep.lift (Value.lockstep_expect value .cell _)).bind fun within _ => ?_
  exact .lift (Run.lockstep_listReply (value.mono within))

theorem lockstep_parameterNames {spec : ValueSpec} (plain : spec.Plain) :
    RepliesAlike settled pairs environment other (.parameterNames spec) := by
  refine (lockstep_buildValue alike plain).bind fun first value => ?_
  refine (Lockstep.lift (DomainId.lockstep_parameterNames (first alike.domain) value)).bind fun _ names => ?_
  exact .pure (congrArg Reply.names names)

theorem lockstep_wrapHere {payload : PayloadSpec} (plain : payload.Plain) (name : Option String) :
    RepliesAlike settled pairs environment other (.wrapHere payload name) := by
  refine (lockstep_buildPayload alike plain).bind fun first same => ?_
  refine (Lockstep.lift (DomainId.lockstep_wrap (first alike.domain) same)).bind fun second value => ?_
  refine (lockstep_keepValue name value).bind fun third _ => ?_
  exact .lift (Run.lockstep_summary (value.mono third))

theorem lockstep_create {payload : PayloadSpec} (plain : payload.Plain) (key : String) (tag : Tag)
    (name : Option String) : RepliesAlike settled pairs environment other (.create key tag payload name) := by
  refine (lockstep_buildPayload alike plain).bind fun first same => ?_
  refine (Work.lockstep_domain key).bind fun second paired => ?_
  refine (Lockstep.lift (DomainId.lockstep_create paired tag (same.mono second))).bind fun third value => ?_
  refine (lockstep_keepValue name value).bind fun fourth _ => ?_
  exact .lift (Run.lockstep_summary (value.mono fourth))

theorem lockstep_put {spec : ValueSpec} (plain : spec.Plain) (key : String) (name : Literal) :
    RepliesAlike settled pairs environment other (.put key name spec) := by
  refine (lockstep_buildValue alike plain).bind fun first value => ?_
  refine (Work.lockstep_scope key).bind fun second paired => ?_
  refine (Lockstep.lift (ScopeId.lockstep_bindLiteral paired name (.value (value.mono second)))).bind fun third _ => ?_
  refine Lockstep.state.bind fun fourth mirrors => ?_
  exact Work.lockstep_shown .text (mirrors.scopeText_eq (fourth (third paired)))

theorem lockstep_rebind {spec : ValueSpec} (plain : spec.Plain) (key : String) (name : Literal) :
    RepliesAlike settled pairs environment other (.rebind key name spec) := by
  refine (lockstep_buildValue alike plain).bind fun first value => ?_
  refine (Work.lockstep_scope key).bind fun second paired => ?_
  refine (Lockstep.lift (ScopeId.lockstep_rebindLiteral paired name (.value (value.mono second)))).bind fun third _ => ?_
  refine Lockstep.state.bind fun fourth mirrors => ?_
  exact Work.lockstep_shown .text (mirrors.scopeText_eq (fourth (third paired)))

theorem lockstep_push {specs : List ValueSpec} (plain : ∀ spec ∈ specs, spec.Plain) (key : String) :
    RepliesAlike settled pairs environment other (.push key specs) := by
  refine (Work.lockstep_stack key).bind fun first paired => ?_
  refine (lockstep_pushAll (alike.mono first) paired plain).bind fun second _ => ?_
  refine Lockstep.state.bind fun third mirrors => ?_
  exact Work.lockstep_shown .summaries (mirrors.summarizeStack_eq (third (second paired)))

end Each

section Registers

variable {environment other : Environment}

theorem lockstep_environment (name : String) (base : Option String) (hosts : List LibraryHost) :
    RepliesAlike settled pairs environment other (.environment name base hosts) := by
  have installed {near : Counterparts} {created like : Environment} (alike : created.Mirrors near like) :
      Work.Lockstep settled near Counterparts.Always
        (hosts.forM fun host => (liftM (created.installLibraryHost host) : Work Unit))
        (hosts.forM fun host => (liftM (like.installLibraryHost host) : Work Unit)) := by
    induction hosts generalizing near with
    | nil => exact .pure trivial
    | cons host hosts ih =>
        exact (Lockstep.lift (Environment.lockstep_installLibraryHost alike host)).bind fun within _ =>
          ih (alike.mono within)
  have opened {near : Counterparts} {domain like : Option DomainId}
      (same : Option.Rel (fun one two => near (.domain one) (.domain two)) domain like) :
      Work.Lockstep settled near (Counterparts.Same : Counterparts → Reply → Reply → Prop)
        (do
          let created ← Environment.fresh domain
          hosts.forM fun host => created.installLibraryHost host
          modify fun registers => registers.putEnvironment name created
          return .done)
        (do
          let created ← Environment.fresh like
          hosts.forM fun host => created.installLibraryHost host
          modify fun registers => registers.putEnvironment name created
          return .done) := by
    refine (Lockstep.lift (Environment.lockstep_fresh same)).bind fun _ alike => ?_
    refine (installed alike).bind fun within _ => ?_
    have known := alike.mono within
    exact (Lockstep.keep fun registers => registers.putEnvironment name known).bind fun _ _ => .pure rfl
  cases base with
  | none => exact (Lockstep.pure .none).bind fun _ same => opened same
  | some key => exact (Work.lockstep_domain key).some.bind fun _ same => opened same

theorem lockstep_domain (name : String) (standard : Bool) :
    RepliesAlike settled pairs environment other (.domain name standard) := by
  have kept {near : Counterparts} {created like : DomainId} (paired : near (.domain created) (.domain like)) :
      Work.Lockstep settled near (Counterparts.Same : Counterparts → Reply → Reply → Prop)
        (do modify fun registers => registers.putDomain name created; return .done)
        (do modify fun registers => registers.putDomain name like; return .done) :=
    (Lockstep.keep fun registers => registers.putDomain name paired).bind fun _ _ => .pure rfl
  cases standard with
  | true =>
      have named : Tag.null ∈ standardNames.keys := by simp [standardNames, Table.keys]
      exact (Lockstep.lift (Run.lockstep_newDomain named)).bind fun _ paired => kept paired
  | false =>
      have named : Tag.null ∈ Table.keys [(Tag.null, "null")] := by simp [Table.keys]
      exact (Lockstep.lift (Run.lockstep_newDomain named)).bind fun _ paired => kept paired

theorem lockstep_localFrame (name parent : String) (caller : Option String) :
    RepliesAlike settled pairs environment other (.localFrame name parent caller) := by
  refine (Work.lockstep_scope parent).bind fun first above => ?_
  have opened {near : Counterparts} {scope around : ScopeId} (paired : near (.scope scope) (.scope around))
      (depth : Int) :
      Work.Lockstep settled near (Counterparts.Same : Counterparts → Reply → Reply → Prop)
        (do Work.keepFrame name (← Run.newLocalFrame (some scope) depth))
        (do Work.keepFrame name (← Run.newLocalFrame (some around) depth)) :=
    (Lockstep.lift (Run.lockstep_newLocalFrame (.some paired) depth)).bind fun _ frames =>
      lockstep_keepFrame name frames
  cases caller with
  | none => exact opened above 0
  | some key =>
      have depths {near : Counterparts} : Work.Lockstep settled near
          (Counterparts.Same : Counterparts → Int → Int → Prop) (Frame.depth <$> Work.frame key)
          (Frame.depth <$> Work.frame key) :=
        (Work.lockstep_frame key).bind fun _ frames => .pure frames.depth
      exact depths.bind fun second depth => depth ▸ opened (second above) _

theorem lockstep_frame (name inside : String) (operands : Option String) (depth : Int) :
    RepliesAlike settled pairs environment other (.frame name inside operands depth) := by
  refine (Work.lockstep_scope inside).bind fun first paired => ?_
  cases operands with
  | none =>
      exact (Lockstep.lift Run.lockstep_newStack).bind fun second stack =>
        lockstep_keepFrame name ⟨second paired, stack, rfl⟩
  | some key =>
      exact (Work.lockstep_stack key).bind fun second stack =>
        lockstep_keepFrame name ⟨second paired, stack, rfl⟩

theorem lockstep_scope (name : String) (parent : Option String) :
    RepliesAlike settled pairs environment other (.scope name parent) := by
  have opened {near : Counterparts} {above around : Option ScopeId}
      (linked : Option.Rel (fun one two => near (.scope one) (.scope two)) above around) :
      Work.Lockstep settled near (Counterparts.Same : Counterparts → Reply → Reply → Prop)
        (do
          let created ← Run.newScope above
          modify fun registers => registers.putScope name created
          return .text ((← getThe State).scopeSummary created))
        (do
          let created ← Run.newScope around
          modify fun registers => registers.putScope name created
          return .text ((← getThe State).scopeSummary created)) := by
    refine (Lockstep.lift (Run.lockstep_newScope linked)).bind fun first paired => ?_
    refine (Lockstep.keep fun registers => registers.putScope name paired).bind fun second _ => ?_
    refine Lockstep.state.bind fun third mirrors => ?_
    rw [mirrors.scopeSummary_eq (third (second paired))]
    exact .pure rfl
  cases parent with
  | none => exact (Lockstep.pure .none).bind fun _ linked => opened linked
  | some key => exact (Work.lockstep_scope key).some.bind fun _ linked => opened linked

theorem perform_registered (key : String) (registers : Registers) (state : State) :
    perform environment (.registered key) registers state =
      ((Run.fetch registers.domains key >>= fun id => pure (id, registers)) >>= fun result =>
        pure (Reply.names (((state.domain result.1).names.keys.map Tag.label).mergeSort
          fun left right => left ≤ right), result.2)) state :=
  rfl

theorem perform_registered_of_known {key : String} {registers : Registers} {id : DomainId}
    (known : registers.domains.get? key = some id) (state : State) :
    perform environment (.registered key) registers state =
      .ok (.names (((state.domain id).names.keys.map Tag.label).mergeSort fun left right => left ≤ right),
        registers) state := by
  rw [perform_registered, Run.fetch, known]
  rfl

theorem perform_registered_of_unknown {key : String} {registers : Registers}
    (unknown : registers.domains.get? key = none) (state : State) :
    perform environment (.registered key) registers state = .error (.unknownRegister key) state := by
  rw [perform_registered, Run.fetch, unknown]
  rfl

-- The state is read before the register is, so the two are alike under one and the same pairing.
theorem lockstep_registered (key : String) :
    RepliesAlike settled pairs environment other (.registered key) := by
  intro registers others alike left right mirrors
  have found := alike.domains.get? key
  generalize here : registers.domains.get? key = content at found
  generalize there : others.domains.get? key = like at found
  cases found with
  | none =>
      rw [perform_registered_of_unknown here, perform_registered_of_unknown there]
      exact .fails mirrors.stay
  | some paired =>
      rw [perform_registered_of_known here, perform_registered_of_known there, (mirrors.domain paired).names]
      exact .ends mirrors.stay ⟨rfl, alike⟩

theorem lockstep_executeOn (source name : String) :
    RepliesAlike settled pairs environment other (.executeOn source name) := by
  refine (lockstep_codeSteps source).bind fun first code => ?_
  refine (Work.lockstep_frame name).bind fun second frames => ?_
  exact .lift (Run.lockstep_onFrame frames (lockstep_runCode frames (code.mono second)))

theorem lockstep_checkDepth (name : String) :
    RepliesAlike settled pairs environment other (.checkDepth name) := by
  refine (Work.lockstep_frame name).bind fun _ frames => ?_
  exact (Lockstep.lift (lockstep_requireDepth frames)).bind fun _ _ => .pure rfl

theorem lockstep_symbol (name : Literal) : RepliesAlike settled pairs environment other (.symbol name) := by
  rw [RepliesAlike, perform, perform]
  split
  · exact .pure rfl
  · exact .throw _

theorem lockstep_register (unsettled : ¬ settled) (key : String) (tag : Tag) (name : String) :
    RepliesAlike settled pairs environment other (.register key tag name) := by
  refine (Work.lockstep_domain key).bind fun _ paired => ?_
  refine (Lockstep.lift (DomainId.lockstep_register unsettled paired tag name)).bind fun _ same => ?_
  exact .pure (congrArg Reply.text same)

theorem lockstep_typeName (key : String) (tag : Tag) :
    RepliesAlike settled pairs environment other (.typeName key tag) := by
  refine (Work.lockstep_domain key).bind fun _ paired => ?_
  refine (Lockstep.lift (DomainId.lockstep_typeName paired tag)).bind fun _ same => ?_
  exact .pure (congrArg Reply.text same)

theorem lockstep_lookup (key : String) (name : Literal) :
    RepliesAlike settled pairs environment other (.lookup key name) := by
  refine (Work.lockstep_scope key).bind fun _ paired => ?_
  refine (Lockstep.lift (ScopeId.lockstep_lookupLiteral paired name)).bind fun _ found => ?_
  exact .lift (Run.lockstep_bindingSummary found)

theorem lockstep_find (key : String) (name : Literal) :
    RepliesAlike settled pairs environment other (.find key name) := by
  refine (Work.lockstep_scope key).bind fun _ paired => ?_
  refine Lockstep.state.bind fun {near left right} within mirrors => ?_
  have hops : left.hops? _ = right.hops? _ := funext fun text => mirrors.hops?_eq (within paired) text
  rw [hops]
  exact .pure rfl

theorem lockstep_scopeInfo (key : String) : RepliesAlike settled pairs environment other (.scopeInfo key) := by
  refine (Work.lockstep_scope key).bind fun _ paired => ?_
  refine Lockstep.state.bind fun within mirrors => ?_
  have known := within paired
  rw [← Option.not_isSome, ← Option.not_isSome, rel_isSome (mirrors.scope known).parent,
    mirrors.scopeSummary_eq known]
  exact Work.lockstep_shown (.scope _ · _) (mirrors.scopeText_eq known)

theorem lockstep_stack (name : String) : RepliesAlike settled pairs environment other (.stack name) := by
  refine (Lockstep.lift Run.lockstep_newStack).bind fun _ paired => ?_
  exact (Lockstep.keep fun registers => registers.putStack name paired).bind fun _ _ => .pure rfl

theorem lockstep_pop (key : String) : RepliesAlike settled pairs environment other (.pop key) := by
  refine (Work.lockstep_stack key).bind fun _ paired => ?_
  exact (Lockstep.lift (StackId.lockstep_pop paired)).bind fun _ value => .lift (Run.lockstep_summary value)

theorem lockstep_peek (key : String) : RepliesAlike settled pairs environment other (.peek key) := by
  refine (Work.lockstep_stack key).bind fun _ paired => ?_
  exact (Lockstep.lift (StackId.lockstep_peek paired)).bind fun _ value => .lift (Run.lockstep_summary value)

theorem lockstep_popMany (key : String) (count : Int) :
    RepliesAlike settled pairs environment other (.popMany key count) := by
  refine (Work.lockstep_stack key).bind fun _ paired => ?_
  refine (Lockstep.lift (StackId.lockstep_popMany paired count)).bind fun first taken => ?_
  refine Lockstep.state.bind fun second mirrors => ?_
  have shown := mirrors.summarizeAll_eq (Value.AllMirror.mono second taken)
  refine (Lockstep.lift (Run.Lockstep.written shown)).bind fun _ block => ?_
  rw [block]
  exact Work.lockstep_shown (.block _) (mirrors.summarizeStack_eq (second (first paired)))

theorem lockstep_stackInfo (key : String) : RepliesAlike settled pairs environment other (.stackInfo key) := by
  refine (Work.lockstep_stack key).bind fun _ paired => ?_
  refine Lockstep.state.bind fun within mirrors => ?_
  refine (Lockstep.lift (Run.Lockstep.written (mirrors.summarizeStack_eq (within paired)))).bind fun _ items => ?_
  rw [items]
  exact Work.lockstep_shown (.stack _) (mirrors.stackText_eq (within paired))

theorem lockstep_clear (key : String) : RepliesAlike settled pairs environment other (.clear key) := by
  refine (Work.lockstep_stack key).bind fun _ paired => ?_
  refine (Lockstep.lift (StackId.lockstep_clear paired)).bind fun first _ => ?_
  refine (Lockstep.lift (StackId.lockstep_size (first paired))).bind fun _ same => ?_
  exact .pure (congrArg (fun size : Nat => Reply.number size) same)

end Registers

theorem lockstep_perform {environment other : Environment} (alike : environment.Mirrors pairs other)
    (command : Command) (plain : command.Plain) (calm : settled → command.Settled) :
    RepliesAlike settled pairs environment other command := by
  cases command with
  | evaluate spec names => exact lockstep_evaluate alike plain names
  | define name spec => exact lockstep_define alike plain name
  | set name spec bare => exact lockstep_set alike plain name bare
  | setLiteral name binding => exact .throw _
  | «alias» name target => exact lockstep_alias alike name target
  | global name => exact lockstep_global alike name
  | script name signature pops specs => exact lockstep_script alike plain name signature pops
  | ticks =>
      refine (Lockstep.lift (Environment.lockstep_ticks alike)).bind fun _ count => ?_
      exact .pure (congrArg (fun count : Nat => Reply.number count) count)
  | environment name base hosts => exact lockstep_environment name base hosts
  | limit raw => exact (Lockstep.lift (Run.lockstep_limit calm _)).bind fun _ _ => .pure rfl
  | compile spec name => exact lockstep_compile alike plain name
  | code specs name => exact lockstep_code alike plain name
  | quote spec name => exact lockstep_quote alike plain name
  | execute source => exact lockstep_execute alike source
  | topFrame name => exact lockstep_topFrame alike name
  | localFrame name parent caller => exact lockstep_localFrame name parent caller
  | frame name inside operands depth => exact lockstep_frame name inside operands depth
  | frameInfo name =>
      exact (Work.lockstep_frame name).bind fun _ frames => .lift (Run.lockstep_frameReply frames)
  | executeOn source name => exact lockstep_executeOn source name
  | executeStep spec name => exact lockstep_executeStep alike plain name
  | callNamed callee name args returns => exact lockstep_callNamed alike callee name args returns
  | callValue spec name args returns => exact lockstep_callValue alike plain name args returns
  | checkDepth name => exact lockstep_checkDepth name
  | node spec => exact (lockstep_buildNode alike plain).bind fun _ node => .lift (Run.lockstep_nodeReply node)
  | value spec name => exact lockstep_value alike plain name
  | display spec => exact lockstep_display alike plain
  | format spec maxDepth maxItems => exact lockstep_format alike plain maxDepth maxItems
  | tags spec => exact lockstep_tags alike plain
  | expect spec tag description => exact lockstep_expect alike plain tag description
  | mutate spec cell => exact (lockstep_buildValue alike plain).bind fun _ _ => .throw _
  | symbol name => exact lockstep_symbol name
  | list spec => exact lockstep_list alike plain
  | parameterNames spec => exact lockstep_parameterNames alike plain
  | wrapHere payload name => exact lockstep_wrapHere alike plain name
  | domain name standard => exact lockstep_domain name standard
  | register key tag name => exact lockstep_register calm key tag name
  | typeName key tag => exact lockstep_typeName key tag
  | registered key => exact lockstep_registered key
  | create key tag payload name => exact lockstep_create alike plain key tag name
  | wrap key payload name => exact lockstep_wrap alike plain key name
  | scope name parent => exact lockstep_scope name parent
  | put key name spec => exact lockstep_put alike plain key name
  | rebind key name spec => exact lockstep_rebind alike plain key name
  | lookup key name => exact lockstep_lookup key name
  | find key name => exact lockstep_find key name
  | scopeInfo key => exact lockstep_scopeInfo key
  | stack name => exact lockstep_stack name
  | push key specs => exact lockstep_push alike plain key
  | pop key => exact lockstep_pop key
  | peek key => exact lockstep_peek key
  | popMany key count => exact lockstep_popMany key count
  | stackInfo key => exact lockstep_stackInfo key
  | clear key => exact lockstep_clear key

end Command

end LazyStack
