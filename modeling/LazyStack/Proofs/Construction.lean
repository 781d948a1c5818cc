import LazyStack.Proofs.LockstepOperation
import LazyStack.Session.Spec

/-!
Nodes and descriptions in lockstep. Like nodes lower to like code and are quoted alike, and a description that
holds plain data is built alike out of like registers, in like domains and scopes.
-/

namespace LazyStack

section Mirrors

variable (pairs : Counterparts)

structure LambdaForm.Mirrors (form other : LambdaForm) : Prop where
  domain : pairs (.domain form.domain) (.domain other.domain)
  null : form.null.Mirrors pairs other.null
  closureName : form.closureName = other.closureName

mutual

inductive Node.Mirrors : Node → Node → Prop
  | value {value like} : value.Mirrors pairs like → Node.Mirrors (.value value) (.value like)
  | get {name} : Node.Mirrors (.get name) (.get name)
  | call {name args others returns} :
      Node.AllMirror args others → Node.Mirrors (.call name args returns) (.call name others returns)
  | group {children others} : Node.AllMirror children others → Node.Mirrors (.group children) (.group others)
  | raw {domain other body like} :
      pairs (.domain domain) (.domain other) → Node.Mirrors body like →
      Node.Mirrors (.raw domain body) (.raw other like)
  | lambda {form other parameters names body like list further} :
      form.Mirrors pairs other → Node.Mirrors parameters names → Node.Mirrors body like →
      list.Mirrors pairs further →
      Node.Mirrors (.lambda form parameters body list) (.lambda other names like further)
  | delay {name body like quoted further} :
      Node.Mirrors body like → quoted.Mirrors pairs further →
      Node.Mirrors (.delay name body quoted) (.delay name like further)

inductive Node.AllMirror : List Node → List Node → Prop
  | nil : Node.AllMirror [] []
  | cons {node other rest further} :
      Node.Mirrors node other → Node.AllMirror rest further → Node.AllMirror (node :: rest) (other :: further)

end

end Mirrors

variable {settled : Prop} {pairs wider : Counterparts}

theorem LambdaForm.Mirrors.mono (within : pairs.Within wider) {form other : LambdaForm}
    (same : form.Mirrors pairs other) : form.Mirrors wider other :=
  ⟨within same.domain, same.null.mono within, same.closureName⟩

mutual

theorem Node.Mirrors.mono (within : pairs.Within wider) {node other : Node} :
    node.Mirrors pairs other → node.Mirrors wider other
  | .value constant => .value (constant.mono within)
  | .get => .get
  | .call args => .call (args.mono within)
  | .group children => .group (children.mono within)
  | .raw domain body => .raw (within domain) (body.mono within)
  | .lambda form parameters body list =>
      .lambda (form.mono within) (parameters.mono within) (body.mono within) (list.mono within)
  | .delay body quoted => .delay (body.mono within) (quoted.mono within)

theorem Node.AllMirror.mono (within : pairs.Within wider) {nodes others : List Node} :
    Node.AllMirror pairs nodes others → Node.AllMirror wider nodes others
  | .nil => .nil
  | .cons first rest => .cons (first.mono within) (rest.mono within)

end

namespace Node

theorem AllMirror.length_eq : {nodes others : List Node} → AllMirror pairs nodes others →
    nodes.length = others.length
  | _, _, .nil => rfl
  | _, _, .cons _ rest => congrArg (· + 1) rest.length_eq

theorem Mirrors.isRaw_eq {node other : Node} (same : node.Mirrors pairs other) :
    node.isRaw = other.isRaw := by
  cases same <;> rfl

theorem Mirrors.kind_eq {node other : Node} (same : node.Mirrors pairs other) : node.kind = other.kind := by
  cases same <;> rfl

theorem Mirrors.parameterName?_eq {node other : Node} (same : node.Mirrors pairs other) :
    node.parameterName? = other.parameterName? := by
  cases same with
  | value value => cases value with
      | @made _ _ tag _ _ _ _ _ _ _ _ payload => cases payload <;> cases tag <;> rfl
  | _ => rfl

theorem Mirrors.children {node other : Node} (same : node.Mirrors pairs other) :
    AllMirror pairs node.children other.children := by
  cases same with
  | value => exact .nil
  | get => exact .nil
  | call args => exact args
  | group children => exact children
  | raw _ body => exact .cons body .nil
  | lambda _ parameters body _ => exact .cons parameters (.cons body .nil)
  | delay _ quoted => exact .cons (.value quoted) .nil

mutual

theorem Mirrors.text_eq {naming other : Naming} (namings : naming.Mirrors pairs other) :
    {node like : Node} → node.Mirrors pairs like → node.text naming = like.text other
  | _, _, .value constant => by rw [text, text, constant.text_eq namings .standard 0]
  | _, _, .get => rfl
  | _, _, .call args => by rw [text, text, args.texts_eq namings]
  | _, _, .group children => by rw [text, text, children.texts_eq namings]
  | _, _, .raw _ body => by rw [text, text, body.text_eq namings]
  | _, _, .lambda _ parameters body _ => by
      rw [text, text, parameters.text_eq namings, body.text_eq namings]
  | _, _, .delay _ quoted => by rw [text, text, quoted.text_eq namings .standard 0]

theorem AllMirror.texts_eq {naming other : Naming} (namings : naming.Mirrors pairs other) :
    {nodes others : List Node} → AllMirror pairs nodes others → texts naming nodes = texts other others
  | _, _, .nil => rfl
  | _, _, .cons first rest => congrArg₂ List.cons (first.text_eq namings) (rest.texts_eq namings)

end

theorem lockstep_pushQuoted {domain other : DomainId} (paired : pairs (.domain domain) (.domain other))
    {steps like : List Step} (same : Code.Mirrors pairs steps like) :
    Run.Lockstep settled pairs Code.Mirrors (pushQuoted domain steps) (pushQuoted other like) :=
  (DomainId.lockstep_create paired .code (.code same)).bind fun _ value => .pure (.cons (.push value) .nil)

theorem lockstep_pushBody {domain other : DomainId} (paired : pairs (.domain domain) (.domain other))
    {body like : Node} (bodies : body.Mirrors pairs like) {steps code : List Step}
    (same : Code.Mirrors pairs steps code) :
    Run.Lockstep settled pairs Code.Mirrors (pushBody domain body steps) (pushBody other like code) := by
  rw [pushBody, pushBody, bodies.isRaw_eq]
  exact .ite Iff.rfl (.pure same) (lockstep_pushQuoted paired same)

mutual

theorem Mirrors.lockstep_lower {pairs : Counterparts} : {node other : Node} → node.Mirrors pairs other →
    Run.Lockstep settled pairs Code.Mirrors node.lower other.lower
  | _, _, .value constant => .pure (.cons (.push constant) .nil)
  | _, _, .get => .pure (.cons .get .nil)
  | _, _, .call args => by
      rw [lower, lower, args.length_eq]
      exact args.lockstep_lowerAll.bind fun _ steps => .pure (steps.append (.cons .call .nil))
  | _, _, .group children => children.lockstep_lowerAll
  | _, _, .raw domain body => by
      rw [lower, lower]
      exact body.lockstep_lower.bind fun within steps => lockstep_pushQuoted (within domain) steps
  | _, _, .lambda form _ body list => by
      rw [lower, lower, form.closureName]
      refine body.lockstep_lower.bind fun first steps => ?_
      refine (lockstep_pushBody (first form.domain) (body.mono first) steps).bind fun second quoted => ?_
      exact .pure (.cons (.push ((list.mono first).mono second)) (quoted.append (.cons .call .nil)))
  | _, _, .delay _ quoted => .pure (.cons (.push quoted) (.cons .call .nil))

theorem AllMirror.lockstep_lowerAll {pairs : Counterparts} : {nodes others : List Node} →
    AllMirror pairs nodes others →
    Run.Lockstep settled pairs Code.Mirrors (lowerAll nodes) (lowerAll others)
  | _, _, .nil => .pure .nil
  | _, _, .cons first rest => by
      rw [lowerAll, lowerAll]
      refine first.lockstep_lower.bind fun within steps => ?_
      exact (rest.mono within).lockstep_lowerAll.bind fun further more =>
        .pure ((steps.mono further).append more)

end

theorem Mirrors.lockstep_quote {node like : Node} (same : node.Mirrors pairs like) {domain other : DomainId}
    (paired : pairs (.domain domain) (.domain other)) :
    Run.Lockstep settled pairs Value.Mirrors (node.quote domain) (like.quote other) :=
  same.lockstep_lower.bind fun within steps =>
    DomainId.lockstep_create (within paired) .code (.code steps)

end Node

namespace LambdaForm

theorem collectNames_eq (malformed : Failure) (seen : List String) {nodes others : List Node}
    (same : Node.AllMirror pairs nodes others) :
    collectNames malformed seen nodes = collectNames malformed seen others := by
  induction nodes generalizing seen others with
  | nil =>
      cases same
      rfl
  | cons node nodes ih =>
      cases same with
      | cons first rest =>
          rw [collectNames, collectNames, first.parameterName?_eq]
          split
          · rfl
          · split
            · rfl
            · exact ih _ rest

theorem Mirrors.parameterNodes (oneToOne : pairs.OneToOne) {form other : LambdaForm}
    (forms : form.Mirrors pairs other) {parameters names : Node} (same : parameters.Mirrors pairs names) :
    Node.AllMirror pairs (form.parameterNodes parameters) (other.parameterNodes names) := by
  cases same with
  | value constant =>
      rw [LambdaForm.parameterNodes, LambdaForm.parameterNodes, constant.same_eq oneToOne forms.null]
      split
      · exact .nil
      · exact .cons (.value constant) .nil
  | group children => exact children
  | get => exact .cons .get .nil
  | call args => exact .cons (.call args) .nil
  | raw domain body => exact .cons (.raw domain body) .nil
  | lambda inner parameters body list => exact .cons (.lambda inner parameters body list) .nil
  | delay body quoted => exact .cons (.delay body quoted) .nil

theorem Mirrors.lockstep_build {form other : LambdaForm} (forms : form.Mirrors pairs other)
    {parameters names body like : Node} (same : parameters.Mirrors pairs names)
    (bodies : body.Mirrors pairs like) :
    Run.Lockstep settled pairs Node.Mirrors (form.build parameters body) (other.build names like) := by
  refine Run.Lockstep.get.bind fun {near left right} first mirrors => ?_
  have collected : form.parameterNames left.naming parameters = other.parameterNames right.naming names := by
    rw [LambdaForm.parameterNames, LambdaForm.parameterNames, (same.mono first).text_eq mirrors.naming]
    exact collectNames_eq _ [] ((forms.mono first).parameterNodes mirrors.oneToOne (same.mono first))
  rw [collected]
  cases other.parameterNames right.naming names with
  | error failure => exact .throw failure
  | ok parameterNames =>
      have symbols : Run.Lockstep settled near (fun wider => List.Forall₂ (Value.Mirrors wider))
          (parameterNames.mapM fun name => form.domain.create .symbol (.symbol name))
          (parameterNames.mapM fun name => other.domain.create .symbol (.symbol name)) :=
        Run.lockstep_mapM (fun _ known => known) (fun within known => known.mono within)
          (fun {_ name other} within (equal : name = other) => by
            subst equal
            exact DomainId.lockstep_create (within (first forms.domain)) .symbol .symbol)
          (List.forall₂_same.mpr fun _ _ => rfl)
      refine symbols.bind fun second items => ?_
      have upTo := first.trans second
      refine (DomainId.lockstep_list (upTo forms.domain) items (forms.null.mono upTo)).bind fun third list => ?_
      have within := upTo.trans third
      exact .pure (.lambda (forms.mono within) (same.mono within) (bodies.mono within) list)

end LambdaForm

theorem Node.lockstep_buildDelay {domain other : DomainId} (paired : pairs (.domain domain) (.domain other))
    (name : String) {children others : List Node} (same : Node.AllMirror pairs children others) :
    Run.Lockstep settled pairs Node.Mirrors (Node.buildDelay domain name children)
      (Node.buildDelay other name others) := by
  have lengths := same.length_eq
  cases same with
  | nil => exact .throw _
  | cons body rest =>
      cases rest with
      | nil =>
          exact (body.lockstep_quote paired).bind fun within quoted =>
            .pure (Node.Mirrors.delay (body.mono within) quoted)
      | cons second rest =>
          rw [buildDelay, buildDelay, lengths]
          · exact .throw _
          · rintro _ ⟨⟩
          · rintro _ ⟨⟩

mutual

def ValueSpec.Plain : ValueSpec → Prop
  | .canonicalNull => True
  | .freshNull => True
  | .plain _ payload => payload.atomic
  | .list items tail => ValueSpec.AllPlain items ∧ match tail with
      | some last => last.Plain
      | none => True
  | .cell head tail => head.Plain ∧ tail.Plain
  | .code node => node.Plain
  | .steps steps => StepSpec.AllPlain steps
  | .global _ => True
  | .register _ => True
  | .within _ value => value.Plain

def ValueSpec.AllPlain : List ValueSpec → Prop
  | [] => True
  | spec :: rest => spec.Plain ∧ ValueSpec.AllPlain rest

def StepSpec.Plain : StepSpec → Prop
  | .push value => value.Plain
  | .get _ => True
  | .call _ _ _ => True
  | .note _ => True

def StepSpec.AllPlain : List StepSpec → Prop
  | [] => True
  | spec :: rest => spec.Plain ∧ StepSpec.AllPlain rest

def NodeSpec.Plain : NodeSpec → Prop
  | .value value => value.Plain
  | .get _ => True
  | .call _ args _ => NodeSpec.AllPlain args
  | .group children => NodeSpec.AllPlain children
  | .raw body => body.Plain
  | .lambda parameters body null _ => parameters.Plain ∧ body.Plain ∧ match null with
      | some value => value.Plain
      | none => True
  | .delay children _ => NodeSpec.AllPlain children

def NodeSpec.AllPlain : List NodeSpec → Prop
  | [] => True
  | spec :: rest => spec.Plain ∧ NodeSpec.AllPlain rest

end

def PayloadSpec.Plain : PayloadSpec → Prop
  | .plain payload => payload.atomic
  | .cell head tail => head.Plain ∧ tail.Plain
  | .payloadOf value => value.Plain

theorem Payload.mirrors_of_atomic {payload : Payload} (atomic : payload.atomic) :
    payload.Mirrors pairs payload := by
  cases payload with
  | null => exact .null
  | bool => exact .bool
  | int => exact .int
  | float => exact .float
  | text => exact .text
  | symbol => exact .symbol
  | bytes => exact .bytes
  | cell => cases atomic
  | code => cases atomic
  | callable => cases atomic

structure Environment.Mirrors (pairs : Counterparts) (environment other : Environment) : Prop where
  domain : pairs (.domain environment.domain) (.domain other.domain)
  globals : pairs (.scope environment.globals) (.scope other.globals)

structure Registers.Mirrors (pairs : Counterparts) (registers other : Registers) : Prop where
  values : Table.Rel (Value.Mirrors pairs) registers.values other.values
  codes : Table.Rel (Code.Mirrors pairs) registers.codes other.codes
  scopes : Table.Rel (fun one two => pairs (.scope one) (.scope two)) registers.scopes other.scopes
  operandStacks :
    Table.Rel (fun one two => pairs (.stack one) (.stack two)) registers.operandStacks other.operandStacks
  frames : Table.Rel (Frame.Mirrors pairs) registers.frames other.frames
  domains : Table.Rel (fun one two => pairs (.domain one) (.domain two)) registers.domains other.domains
  environments : Table.Rel (Environment.Mirrors pairs) registers.environments other.environments

theorem Environment.Mirrors.mono (within : pairs.Within wider) {environment other : Environment}
    (same : environment.Mirrors pairs other) : environment.Mirrors wider other :=
  ⟨within same.domain, within same.globals⟩

theorem Registers.Mirrors.mono (within : pairs.Within wider) {registers other : Registers}
    (same : registers.Mirrors pairs other) : registers.Mirrors wider other where
  values := same.values.mono fun known => known.mono within
  codes := same.codes.mono fun known => known.mono within
  scopes := same.scopes.mono fun known => within known
  operandStacks := same.operandStacks.mono fun known => within known
  frames := same.frames.mono fun known => known.mono within
  domains := same.domains.mono fun known => within known
  environments := same.environments.mono fun known => known.mono within

theorem Registers.mirrors_empty : Registers.empty.Mirrors pairs Registers.empty :=
  ⟨.nil, .nil, .nil, .nil, .nil, .nil, .nil⟩

section Put

variable {registers others : Registers} (same : registers.Mirrors pairs others) (name : String)
include same

theorem Registers.Mirrors.putValue {value like : Value} (values : value.Mirrors pairs like) :
    (registers.putValue name value).Mirrors pairs (others.putValue name like) :=
  { same with values := same.values.put name values }

theorem Registers.Mirrors.putCode {steps code : List Step} (known : Code.Mirrors pairs steps code) :
    (registers.putCode name steps).Mirrors pairs (others.putCode name code) :=
  { same with codes := same.codes.put name known }

theorem Registers.Mirrors.putScope {scope other : ScopeId} (paired : pairs (.scope scope) (.scope other)) :
    (registers.putScope name scope).Mirrors pairs (others.putScope name other) :=
  { same with scopes := same.scopes.put name paired }

theorem Registers.Mirrors.putStack {stack other : StackId} (paired : pairs (.stack stack) (.stack other)) :
    (registers.putStack name stack).Mirrors pairs (others.putStack name other) :=
  { same with operandStacks := same.operandStacks.put name paired }

theorem Registers.Mirrors.putFrame {frame caller : Frame} (frames : frame.Mirrors pairs caller) :
    (registers.putFrame name frame).Mirrors pairs (others.putFrame name caller) :=
  { same with
    frames := same.frames.put name frames
    operandStacks := same.operandStacks.put name frames.stack
    scopes := same.scopes.put name frames.scope }

theorem Registers.Mirrors.putDomain {domain other : DomainId}
    (paired : pairs (.domain domain) (.domain other)) :
    (registers.putDomain name domain).Mirrors pairs (others.putDomain name other) :=
  { same with domains := same.domains.put name paired }

theorem Registers.Mirrors.putEnvironment {environment other : Environment}
    (alike : environment.Mirrors pairs other) :
    (registers.putEnvironment name environment).Mirrors pairs (others.putEnvironment name other) :=
  { same with
    environments := same.environments.put name alike
    domains := same.domains.put name alike.domain
    scopes := same.scopes.put name alike.globals }

end Put

theorem Run.lockstep_fetch {α β : Type} {fit : Counterparts → α → β → Prop} {table : Table String α}
    {other : Table String β} (same : Table.Rel (fit pairs) table other) (name : String) :
    Run.Lockstep settled pairs fit (Run.fetch table name) (Run.fetch other name) := by
  have found := same.get? name
  rw [Run.fetch, Run.fetch]
  generalize table.get? name = content at found ⊢
  generalize other.get? name = like at found ⊢
  cases found with
  | none => exact .throw _
  | some known => exact .pure known

/-- What descriptions are built out of is alike on the two sides. -/
structure Ingredients (pairs : Counterparts) (registers others : Registers) (globals around : ScopeId)
    (domain like : DomainId) : Prop where
  registers : registers.Mirrors pairs others
  globals : pairs (.scope globals) (.scope around)
  domain : pairs (.domain domain) (.domain like)

theorem Ingredients.mono (within : pairs.Within wider) {registers others : Registers}
    {globals around : ScopeId} {domain like : DomainId}
    (alike : Ingredients pairs registers others globals around domain like) :
    Ingredients wider registers others globals around domain like :=
  ⟨alike.registers.mono within, within alike.globals, within alike.domain⟩

section Build

variable {registers others : Registers} {globals around : ScopeId}

mutual

theorem ValueSpec.lockstep_build {pairs : Counterparts} {domain like : DomainId}
    (alike : Ingredients pairs registers others globals around domain like) :
    (spec : ValueSpec) → spec.Plain →
      Run.Lockstep settled pairs Value.Mirrors (spec.build registers globals domain)
        (spec.build others around like)
  | .canonicalNull, _ => DomainId.lockstep_null alike.domain
  | .freshNull, _ => DomainId.lockstep_create alike.domain .null .null
  | .plain tag payload, plain => DomainId.lockstep_create alike.domain tag (Payload.mirrors_of_atomic plain)
  | .list items none, plain => by
      rw [ValueSpec.build, ValueSpec.build]
      refine (ValueSpec.lockstep_buildAll alike items plain.1).bind fun first values => ?_
      refine (DomainId.lockstep_null (first alike.domain)).bind fun second last => ?_
      exact DomainId.lockstep_list (second (first alike.domain)) (Value.AllMirror.mono second values) last
  | .list items (some tail), plain => by
      rw [ValueSpec.build, ValueSpec.build]
      refine (ValueSpec.lockstep_buildAll alike items plain.1).bind fun first values => ?_
      refine (ValueSpec.lockstep_build (alike.mono first) tail plain.2).bind fun second last => ?_
      exact DomainId.lockstep_list (second (first alike.domain)) (Value.AllMirror.mono second values) last
  | .cell head tail, plain => by
      rw [ValueSpec.build, ValueSpec.build]
      refine (ValueSpec.lockstep_build alike head plain.1).bind fun first one => ?_
      refine (ValueSpec.lockstep_build (alike.mono first) tail plain.2).bind fun second two => ?_
      exact DomainId.lockstep_create (second (first alike.domain)) .cell (.cell (one.mono second) two)
  | .code node, plain => by
      rw [ValueSpec.build, ValueSpec.build]
      exact (NodeSpec.lockstep_build alike node plain).bind fun first built =>
        built.lockstep_quote (first alike.domain)
  | .steps steps, plain => by
      rw [ValueSpec.build, ValueSpec.build]
      exact (StepSpec.lockstep_buildAll alike steps plain).bind fun first built =>
        DomainId.lockstep_create (first alike.domain) .code (.code built)
  | .global name, _ => by
      rw [ValueSpec.build, ValueSpec.build]
      refine (ScopeId.lockstep_lookup alike.globals name).bind fun first found => ?_
      cases found with
      | callable target => exact DomainId.lockstep_create (first alike.domain) .callable (.callable target)
      | value bound =>
          refine (DomainId.lockstep_typeName (first alike.domain) .callable).bind fun second typeName => ?_
          refine Run.Lockstep.get.bind fun third mirrors => ?_
          rw [typeName, mirrors.valueTagged_eq ((bound.mono second).mono third)]
          exact .throw _
  | .register name, _ => Run.lockstep_fetch alike.registers.values name
  | .within other value, plain => by
      rw [ValueSpec.build, ValueSpec.build]
      exact (Run.lockstep_fetch alike.registers.domains other).bind fun first inner =>
        ValueSpec.lockstep_build ⟨alike.registers.mono first, first alike.globals, inner⟩ value plain

theorem ValueSpec.lockstep_buildAll {pairs : Counterparts} {domain like : DomainId}
    (alike : Ingredients pairs registers others globals around domain like) :
    (specs : List ValueSpec) → ValueSpec.AllPlain specs →
      Run.Lockstep settled pairs Value.AllMirror (ValueSpec.buildAll registers globals domain specs)
        (ValueSpec.buildAll others around like specs)
  | [], _ => .pure .nil
  | spec :: rest, plain => by
      rw [ValueSpec.buildAll, ValueSpec.buildAll]
      refine (ValueSpec.lockstep_build alike spec plain.1).bind fun first value => ?_
      refine (ValueSpec.lockstep_buildAll (alike.mono first) rest plain.2).bind fun second values => ?_
      exact .pure (.cons (value.mono second) values)

theorem StepSpec.lockstep_build {pairs : Counterparts} {domain like : DomainId}
    (alike : Ingredients pairs registers others globals around domain like) :
    (spec : StepSpec) → spec.Plain →
      Run.Lockstep settled pairs Step.Mirrors (spec.build registers globals domain)
        (spec.build others around like)
  | .push value, plain => by
      rw [StepSpec.build, StepSpec.build]
      exact (ValueSpec.lockstep_build alike value plain).bind fun _ built => .pure (.push built)
  | .get _, _ => .pure .get
  | .call _ _ _, _ => .pure .call
  | .note _, _ => .pure .note

theorem StepSpec.lockstep_buildAll {pairs : Counterparts} {domain like : DomainId}
    (alike : Ingredients pairs registers others globals around domain like) :
    (specs : List StepSpec) → StepSpec.AllPlain specs →
      Run.Lockstep settled pairs Code.Mirrors (StepSpec.buildAll registers globals domain specs)
        (StepSpec.buildAll others around like specs)
  | [], _ => .pure .nil
  | spec :: rest, plain => by
      rw [StepSpec.buildAll, StepSpec.buildAll]
      refine (StepSpec.lockstep_build alike spec plain.1).bind fun first step => ?_
      refine (StepSpec.lockstep_buildAll (alike.mono first) rest plain.2).bind fun second steps => ?_
      exact .pure (.cons (step.mono second) steps)

theorem NodeSpec.lockstep_build {pairs : Counterparts} {domain like : DomainId}
    (alike : Ingredients pairs registers others globals around domain like) :
    (spec : NodeSpec) → spec.Plain →
      Run.Lockstep settled pairs Node.Mirrors (spec.build registers globals domain)
        (spec.build others around like)
  | .value value, plain => by
      rw [NodeSpec.build, NodeSpec.build]
      exact (ValueSpec.lockstep_build alike value plain).bind fun _ built => .pure (.value built)
  | .get _, _ => .pure .get
  | .call name args returns, plain => by
      rw [NodeSpec.build, NodeSpec.build]
      exact (NodeSpec.lockstep_buildAll alike args plain).bind fun _ built => .pure (.call built)
  | .group children, plain => by
      rw [NodeSpec.build, NodeSpec.build]
      exact (NodeSpec.lockstep_buildAll alike children plain).bind fun _ built => .pure (.group built)
  | .raw body, plain => by
      rw [NodeSpec.build, NodeSpec.build]
      exact (NodeSpec.lockstep_build alike body plain).bind fun within built =>
        .pure (.raw (within alike.domain) built)
  | .lambda parameters body none name, plain => by
      rw [NodeSpec.build, NodeSpec.build]
      refine (NodeSpec.lockstep_build alike parameters plain.1).bind fun first names => ?_
      refine (NodeSpec.lockstep_build (alike.mono first) body plain.2.1).bind fun second inner => ?_
      refine (DomainId.lockstep_null (second (first alike.domain))).bind fun third null => ?_
      have form : LambdaForm.Mirrors _ ⟨domain, _, name⟩ ⟨like, _, name⟩ :=
        ⟨third (second (first alike.domain)), null, rfl⟩
      exact form.lockstep_build ((names.mono second).mono third) (inner.mono third)
  | .lambda parameters body (some value) name, plain => by
      rw [NodeSpec.build, NodeSpec.build]
      refine (NodeSpec.lockstep_build alike parameters plain.1).bind fun first names => ?_
      refine (NodeSpec.lockstep_build (alike.mono first) body plain.2.1).bind fun second inner => ?_
      refine (ValueSpec.lockstep_build ((alike.mono first).mono second) value plain.2.2).bind
        fun third null => ?_
      have form : LambdaForm.Mirrors _ ⟨domain, _, name⟩ ⟨like, _, name⟩ :=
        ⟨third (second (first alike.domain)), null, rfl⟩
      exact form.lockstep_build ((names.mono second).mono third) (inner.mono third)
  | .delay children name, plain => by
      rw [NodeSpec.build, NodeSpec.build]
      exact (NodeSpec.lockstep_buildAll alike children plain).bind fun within built =>
        Node.lockstep_buildDelay (within alike.domain) name built

theorem NodeSpec.lockstep_buildAll {pairs : Counterparts} {domain like : DomainId}
    (alike : Ingredients pairs registers others globals around domain like) :
    (specs : List NodeSpec) → NodeSpec.AllPlain specs →
      Run.Lockstep settled pairs Node.AllMirror (NodeSpec.buildAll registers globals domain specs)
        (NodeSpec.buildAll others around like specs)
  | [], _ => .pure .nil
  | spec :: rest, plain => by
      rw [NodeSpec.buildAll, NodeSpec.buildAll]
      refine (NodeSpec.lockstep_build alike spec plain.1).bind fun first node => ?_
      refine (NodeSpec.lockstep_buildAll (alike.mono first) rest plain.2).bind fun second nodes => ?_
      exact .pure (.cons (node.mono second) nodes)

end

theorem PayloadSpec.lockstep_build {pairs : Counterparts} {domain like : DomainId}
    (alike : Ingredients pairs registers others globals around domain like) (spec : PayloadSpec)
    (plain : spec.Plain) :
    Run.Lockstep settled pairs Payload.Mirrors (spec.build registers globals domain)
      (spec.build others around like) := by
  cases spec with
  | plain payload => exact .pure (Payload.mirrors_of_atomic plain)
  | cell head tail =>
      refine (ValueSpec.lockstep_build alike head plain.1).bind fun first one => ?_
      refine (ValueSpec.lockstep_build (alike.mono first) tail plain.2).bind fun second two => ?_
      exact .pure (.cell (one.mono second) two)
  | payloadOf value =>
      exact (ValueSpec.lockstep_build alike value plain).bind fun _ built => .pure built.payload

end Build

end LazyStack
