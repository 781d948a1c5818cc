import LazyStack.Session.Registers

/-!
Descriptions of values, steps and nodes, and how they are built. A description is built from left to
right and from the inside out, so the first failure among its parts is the failure of the whole.
-/

namespace LazyStack

mutual

inductive ValueSpec
  | canonicalNull
  | freshNull
  | plain (tag : Tag) (payload : Payload)
  | list (items : List ValueSpec) (tail : Option ValueSpec)
  | cell (head tail : ValueSpec)
  | code (node : NodeSpec)
  | steps (steps : List StepSpec)
  | global (name : String)
  | register (name : String)
  | within (domain : String) (value : ValueSpec)

inductive StepSpec
  | push (value : ValueSpec)
  | get (name : String)
  | call (name : String) (args returns : Option Int)
  | note (text : String)

inductive NodeSpec
  | value (value : ValueSpec)
  | get (name : String)
  | call (name : String) (args : List NodeSpec) (returns : Int)
  | group (children : List NodeSpec)
  | raw (body : NodeSpec)
  | lambda (parameters body : NodeSpec) (null : Option ValueSpec) (name : String)
  | delay (children : List NodeSpec) (name : String)

end

/-- The description of a payload that no domain has tagged yet. -/
inductive PayloadSpec
  | plain (payload : Payload)
  | cell (head tail : ValueSpec)
  | payloadOf (value : ValueSpec)

mutual

def ValueSpec.build (registers : Registers) (globals : ScopeId) (domain : DomainId) :
    ValueSpec → Run Value
  | .canonicalNull => domain.null
  | .freshNull => domain.create .null (.null true)
  | .plain tag payload => domain.create tag payload
  | .list items tail => do
      let values ← ValueSpec.buildAll registers globals domain items
      let terminator ← match tail with
        | some last => last.build registers globals domain
        | none => domain.null
      domain.list values terminator
  | .cell head tail => do
      let first ← head.build registers globals domain
      let second ← tail.build registers globals domain
      domain.create .cell (.cell first second)
  | .code node => do
      let built ← node.build registers globals domain
      built.quote domain
  | .steps steps => do
      let built ← StepSpec.buildAll registers globals domain steps
      domain.create .code (.code built)
  | .global name => do
      match ← globals.lookup name with
      | .callable target => domain.create .callable (.callable target)
      | .value bound =>
          let typeName ← domain.typeName .callable
          throw (.worded (.misfit · typeName) ((← get).valueTagged bound))
  | .register name => Run.fetch registers.values name
  | .within other value => do
      let inner ← Run.fetch registers.domains other
      value.build registers globals inner

def ValueSpec.buildAll (registers : Registers) (globals : ScopeId) (domain : DomainId) :
    List ValueSpec → Run (List Value)
  | [] => return []
  | spec :: rest => do
      let value ← spec.build registers globals domain
      return value :: (← ValueSpec.buildAll registers globals domain rest)

def StepSpec.build (registers : Registers) (globals : ScopeId) (domain : DomainId) :
    StepSpec → Run Step
  | .push value => do return .push (← value.build registers globals domain)
  | .get name => return .get name
  | .call name args returns => return .call name args returns
  | .note text => return .note text

def StepSpec.buildAll (registers : Registers) (globals : ScopeId) (domain : DomainId) :
    List StepSpec → Run (List Step)
  | [] => return []
  | spec :: rest => do
      let step ← spec.build registers globals domain
      return step :: (← StepSpec.buildAll registers globals domain rest)

def NodeSpec.build (registers : Registers) (globals : ScopeId) (domain : DomainId) :
    NodeSpec → Run Node
  | .value value => do return .value (← value.build registers globals domain)
  | .get name => return .get name
  | .call name args returns => do
      return .call name (← NodeSpec.buildAll registers globals domain args) returns
  | .group children => do return .group (← NodeSpec.buildAll registers globals domain children)
  | .raw body => do return .raw domain (← body.build registers globals domain)
  | .lambda parameters body null name => do
      let first ← parameters.build registers globals domain
      let second ← body.build registers globals domain
      let terminator ← match null with
        | some value => value.build registers globals domain
        | none => domain.null
      LambdaForm.build ⟨domain, terminator, name⟩ first second
  | .delay children name => do
      let nodes ← NodeSpec.buildAll registers globals domain children
      Node.buildDelay domain name nodes

def NodeSpec.buildAll (registers : Registers) (globals : ScopeId) (domain : DomainId) :
    List NodeSpec → Run (List Node)
  | [] => return []
  | spec :: rest => do
      let node ← spec.build registers globals domain
      return node :: (← NodeSpec.buildAll registers globals domain rest)

end

def PayloadSpec.build (registers : Registers) (globals : ScopeId) (domain : DomainId) :
    PayloadSpec → Run Payload
  | .plain payload => return payload
  | .cell head tail => do
      let first ← head.build registers globals domain
      let second ← tail.build registers globals domain
      return .cell first second
  | .payloadOf value => do return (← value.build registers globals domain).payload

end LazyStack
