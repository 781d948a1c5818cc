import LazyStack.Host.Library
import LazyStack.Session.Spec
import LazyStack.Session.Reply
import LazyStack.Setting

/-!
Commands of a session. Each command works in one environment and on the registers, and yields a reply.
A command that fails keeps what it has changed in the state so far and leaves the registers alone.
-/

namespace LazyStack

inductive Command
  | evaluate (node : NodeSpec) (names : List String)
  | define (name : String) (node : NodeSpec)
  | set (name : Literal) (value : ValueSpec) (bare : Bool)
  | setLiteral (name binding : Literal)
  | alias (name target : String)
  | global (name : String)
  | script (name : String) (signature : Signature) (pops : Int) (pushes : List ValueSpec)
  | ticks
  | environment (name : String) (domain : Option String) (hosts : List LibraryHost)
  | limit (raw : Option String)
  | compile (node : NodeSpec) (name : Option String)
  | code (steps : List StepSpec) (name : Option String)
  | quote (node : NodeSpec) (name : Option String)
  | execute (code : String)
  | topFrame (name : String)
  | localFrame (name parent : String) (caller : Option String)
  | frame (name scope : String) (stack : Option String) (depth : Int)
  | frameInfo (frame : String)
  | executeOn (code frame : String)
  | executeStep (step : StepSpec) (frame : String)
  | callNamed (name : String) (frame : String) (args returns : Option Int)
  | callValue (value : ValueSpec) (frame : String) (args returns : Option Int)
  | checkDepth (frame : String)
  | node (node : NodeSpec)
  | value (value : ValueSpec) (name : Option String)
  | display (value : ValueSpec)
  | format (value : ValueSpec) (maxDepth maxItems : Option Int)
  | tags (value : ValueSpec)
  | expect (value : ValueSpec) (tag : Tag) (description : String)
  | mutate (value : ValueSpec) (cell : Bool)
  | symbol (name : Literal)
  | list (value : ValueSpec)
  | parameterNames (value : ValueSpec)
  | wrapHere (payload : PayloadSpec) (name : Option String)
  | domain (name : String) (standard : Bool)
  | register (domain : String) (tag : Tag) (name : String)
  | typeName (domain : String) (tag : Tag)
  | registered (domain : String)
  | create (domain : String) (tag : Tag) (payload : PayloadSpec) (name : Option String)
  | wrap (domain : String) (payload : PayloadSpec) (name : Option String)
  | scope (name : String) (parent : Option String)
  | put (scope : String) (name : Literal) (value : ValueSpec)
  | rebind (scope : String) (name : Literal) (value : ValueSpec)
  | lookup (scope : String) (name : Literal)
  | find (scope : String) (name : Literal)
  | scopeInfo (scope : String)
  | stack (name : String)
  | push (stack : String) (values : List ValueSpec)
  | pop (stack : String)
  | peek (stack : String)
  | popMany (stack : String) (count : Int)
  | stackInfo (stack : String)
  | clear (stack : String)

abbrev Work := StateT Registers Run

namespace Run

/-- Runs an action and catches its failure, with the state as the failure left it. That something has no
text is no failure of the action's own and is not caught. -/
def attempt (action : Run Unit) : Run (Option Failure) :=
  tryCatch (do action; return none) fun failure =>
    match failure with
    | .unwritable cause => throw (.unwritable cause)
    | other => return some other

def summary (value : Value) : Run Reply := do
  return .summary (← written ((← get).summarize value))

def summaries (values : List Value) : Run Reply := do
  return .summaries (← written ((← get).summarizeAll values))

def bindingSummary (binding : Binding) : Run Reply := do
  return .summary (← written ((← get).summarizeBinding binding))

def onFrame (frame : Frame) (action : Run Unit) : Run Reply := do
  let failure ← attempt action
  return .ran failure (← written ((← get).summarizeStack frame.stack))

def codeReply (steps : List Step) : Run Reply := do
  let naming := (← get).naming
  let listing ← written (codeListing naming steps)
  let parts ← written (gathered (Step.quotedAll naming steps))
  return .code steps.length listing parts (← written (codeText naming steps))

def frameReply (frame : Frame) : Run Reply := do
  let state ← get
  let size := (state.operands frame.stack).length
  let depth := frame.depth
  return .frame s!"<Frame depth={depth} stack={size}>" depth (state.scopeSummary frame.scope)

def nodeReply (node : Node) : Run Reply := do
  let state ← get
  let text ← written (node.text state.naming)
  let children ← written (gathered (Node.texts state.naming node.children))
  let parameterList ← match node with
    | .lambda _ _ _ list => some <$> written (state.summarize list)
    | _ => pure none
  return .node node.kind text node.parameterName? children parameterList

def listReply (value : Value) : Run Reply := do
  let state ← get
  let items ← written (state.summarizeAll value.elements)
  let texts ← written (gathered (value.elements.map state.valueText))
  let terminator ← written (state.summarize value.terminator)
  return .list (items.zip (value.walk.map Prod.snd)) texts terminator

def setReply (environment : Environment) (name : Literal) (binding : Binding) : Run Reply := do
  environment.globals.bindLiteral name binding
  bindingSummary binding

end Run

namespace Work

def keepValue (name : Option String) (value : Value) : Work Unit :=
  match name with
  | some register => modify fun registers => registers.putValue register value
  | none => return ()

def keepCode (name : Option String) (steps : List Step) : Work Unit :=
  match name with
  | some register => modify fun registers => registers.putCode register steps
  | none => return ()

def keepFrame (name : String) (frame : Frame) : Work Reply := do
  modify fun registers => registers.putFrame name frame
  Run.frameReply frame

def scope (name : String) : Work ScopeId := do
  Run.fetch (← get).scopes name

def stack (name : String) : Work StackId := do
  Run.fetch (← get).operandStacks name

def frame (name : String) : Work Frame := do
  Run.fetch (← get).frames name

def domain (name : String) : Work DomainId := do
  Run.fetch (← get).domains name

def codeSteps (name : String) : Work (List Step) := do
  Run.fetch (← get).codes name

end Work

namespace Command

variable (environment : Environment)

def buildValue (spec : ValueSpec) : Work Value := do
  spec.build (← get) environment.globals environment.domain

def buildPayload (spec : PayloadSpec) : Work Payload := do
  spec.build (← get) environment.globals environment.domain

def buildNode (spec : NodeSpec) : Work Node := do
  spec.build (← get) environment.globals environment.domain

def buildStep (spec : StepSpec) : Work Step := do
  spec.build (← get) environment.globals environment.domain

def pushAll (stack : StackId) : List ValueSpec → Work Unit
  | [] => return ()
  | spec :: rest => do
      stack.push (← buildValue environment spec)
      pushAll stack rest

def perform : Command → Work Reply
  | .evaluate spec names => do
      let values ← environment.evaluate (← buildNode environment spec)
      (names.zip values).forM fun entry => Work.keepValue (some entry.1) entry.2
      Run.summaries values
  | .define name spec => do
      let values ← environment.evaluate (← buildNode environment spec)
      if let [result] := values then
        environment.globals.bind name (.value result)
      Run.summaries values
  | .set name spec bare => do
      let value ← buildValue environment spec
      if bare then
        match value.payload with
        | .callable target => Run.setReply environment name (.callable target)
        | other => throw (.worded (.unusableGlobal name.bare) ((← getThe State).payloadQuoted other))
      else
        Run.setReply environment name (.value value)
  | .setLiteral name binding => throw (.unusableGlobal name.bare binding.quoted)
  | .alias name target => do
      environment.globals.bind name (← environment.globals.lookup target)
      return .done
  | .global name => do Run.bindingSummary (← environment.globals.lookup name)
  | .script name signature pops pushes => do
      let values ← pushes.mapM (buildValue environment)
      environment.installHost name (scriptedHeader signature) fun _ => scriptedBody pops.toNat values
      return .done
  | .ticks => do return .number (← environment.ticks)
  | .environment name base hosts => do
      let chosen ← match base with
        | some key => some <$> Work.domain key
        | none => pure none
      let created ← Environment.fresh chosen
      hosts.forM fun host => created.installLibraryHost host
      modify fun registers => registers.putEnvironment name created
      return .done
  | .limit raw => do
      modifyThe State fun state => { state with callLimit := callLimit raw }
      return .number (callLimit raw)
  | .compile spec name => do
      let steps ← (← buildNode environment spec).lower
      Work.keepCode name steps
      Run.codeReply steps
  | .code specs name => do
      let steps ← specs.mapM (buildStep environment)
      Work.keepCode name steps
      Run.codeReply steps
  | .quote spec name => do
      let value ← (← buildNode environment spec).quote environment.domain
      Work.keepValue name value
      Run.summary value
  | .execute source => do
      Run.summaries (← environment.execute (← Work.codeSteps source))
  | .topFrame name => do Work.keepFrame name (← Run.newTopFrame environment.globals)
  | .localFrame name parent caller => do
      let above ← Work.scope parent
      let depth ← match caller with
        | some key => Frame.depth <$> Work.frame key
        | none => pure 0
      Work.keepFrame name (← Run.newLocalFrame (some above) depth)
  | .frame name inside operands depth => do
      let scope ← Work.scope inside
      let stack ← match operands with
        | some key => Work.stack key
        | none => Run.newStack
      Work.keepFrame name ⟨scope, stack, depth⟩
  | .frameInfo name => do Run.frameReply (← Work.frame name)
  | .executeOn source name => do
      let steps ← Work.codeSteps source
      let frame ← Work.frame name
      Run.onFrame frame (runCode frame steps)
  | .executeStep spec name => do
      let step ← buildStep environment spec
      let frame ← Work.frame name
      Run.onFrame frame (runCode frame [step])
  | .callNamed callee name args returns => do
      let frame ← Work.frame name
      let binding ← environment.globals.lookup callee
      let target ← binding.callee callee
      Run.onFrame frame (Callable.call target frame args returns)
  | .callValue spec name args returns => do
      let frame ← Work.frame name
      let value ← buildValue environment spec
      match ← value.expect .callable "call target" with
      | .callable target => Run.onFrame frame (Callable.call target frame args returns)
      | _ => return .done
  | .checkDepth name => do
      requireDepth (← Work.frame name)
      return .done
  | .node spec => do Run.nodeReply (← buildNode environment spec)
  | .value spec name => do
      let value ← buildValue environment spec
      Work.keepValue name value
      Run.summary value
  | .display spec => do
      let value ← buildValue environment spec
      let state ← getThe State
      let text ← Run.written (state.valueText value)
      let tagged ← Run.written (state.valueTagged value)
      return .value text tagged (← Run.written (state.payloadQuoted value.payload))
  | .format spec maxDepth maxItems => do
      let value ← buildValue environment spec
      return .text (← Run.written (value.text (← getThe State).naming (.ofLimits maxDepth maxItems) 0))
  | .tags spec => do
      let value ← buildValue environment spec
      return .names [value.tag.label]
  | .expect spec tag description => do
      let value ← buildValue environment spec
      let _ ← value.expect tag description
      Run.summary value
  | .mutate spec cell => do
      let _ ← buildValue environment spec
      throw (if cell then .immutableCell else .immutableValue)
  | .symbol name => do
      match name.name? with
      | some text => return .symbol text (symbolText text)
      | none => throw (.unnameable name.typeName)
  | .list spec => do
      let value ← buildValue environment spec
      let _ ← value.expect .cell "cons step"
      Run.listReply value
  | .parameterNames spec => do
      let value ← buildValue environment spec
      return .names (← environment.domain.parameterNames value)
  | .wrapHere payload name => do
      let value ← environment.domain.wrap (← buildPayload environment payload)
      Work.keepValue name value
      Run.summary value
  | .domain name standard => do
      let created ← if standard then Run.newStandardDomain else Run.newBareDomain
      modify fun registers => registers.putDomain name created
      return .done
  | .register key tag name => do
      return .text (← (← Work.domain key).register tag name)
  | .typeName key tag => do
      return .text (← (← Work.domain key).typeName tag)
  | .registered key => do
      let names := ((← getThe State).domain (← Work.domain key)).names
      return .names ((names.keys.map Tag.label).mergeSort fun left right => left ≤ right)
  | .create key tag payload name => do
      let built ← buildPayload environment payload
      let value ← (← Work.domain key).create tag built
      Work.keepValue name value
      Run.summary value
  | .wrap key payload name => do
      let built ← buildPayload environment payload
      let value ← (← Work.domain key).wrap built
      Work.keepValue name value
      return .wrapped (← Run.written ((← getThe State).summarize value)) value.tag
  | .scope name parent => do
      let above ← match parent with
        | some key => some <$> Work.scope key
        | none => pure none
      let created ← Run.newScope above
      modify fun registers => registers.putScope name created
      return .text ((← getThe State).scopeSummary created)
  | .put key name spec => do
      let value ← buildValue environment spec
      let scope ← Work.scope key
      scope.bindLiteral name (.value value)
      return .text (← Run.written ((← getThe State).scopeText scope))
  | .rebind key name spec => do
      let value ← buildValue environment spec
      let scope ← Work.scope key
      scope.rebindLiteral name (.value value)
      return .text (← Run.written ((← getThe State).scopeText scope))
  | .lookup key name => do
      Run.bindingSummary (← (← Work.scope key).lookupLiteral name)
  | .find key name => do
      let scope ← Work.scope key
      let state ← getThe State
      return .owner (name.name?.bind (state.hops? scope))
  | .scopeInfo key => do
      let scope ← Work.scope key
      let state ← getThe State
      let text ← Run.written (state.scopeText scope)
      return .scope (state.scope scope).parent.isNone text (state.scopeSummary scope)
  | .stack name => do
      let created ← Run.newStack
      modify fun registers => registers.putStack name created
      return .done
  | .push key specs => do
      let stack ← Work.stack key
      pushAll environment stack specs
      return .summaries (← Run.written ((← getThe State).summarizeStack stack))
  | .pop key => do Run.summary (← (← Work.stack key).pop)
  | .peek key => do Run.summary (← (← Work.stack key).peek)
  | .popMany key count => do
      let stack ← Work.stack key
      let taken ← stack.popMany count
      let state ← getThe State
      let shown ← Run.written (state.summarizeAll taken)
      return .block shown (← Run.written (state.summarizeStack stack))
  | .stackInfo key => do
      let stack ← Work.stack key
      let state ← getThe State
      let items ← Run.written (state.summarizeStack stack)
      return .stack items (← Run.written (state.stackText stack))
  | .clear key => do
      let stack ← Work.stack key
      stack.clear
      return .number (← stack.size)

end Command

end LazyStack
