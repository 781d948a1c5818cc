import LazyStack.Cell

/-!
Expression nodes and their lowering to code. A node lowers to steps in order of evaluation. A lambda
lowers to a call with its parameter list and its quoted body, and a delay to a call with its quoted
body; both are checked when they are built, so that a malformed one never reaches the code.
-/

namespace LazyStack

/-- How lambdas are lowered: the domain of the list and code, the null that stands for no parameters
and ends the list, and the name that is called. -/
structure LambdaForm where
  domain : DomainId
  null : Value
  closureName : String

/-- A delay keeps its body beside the quoted code that was made of it. -/
inductive Node
  | value (value : Value)
  | get (name : String)
  | call (name : String) (args : List Node) (returns : Int)
  | group (children : List Node)
  | raw (domain : DomainId) (body : Node)
  | lambda (form : LambdaForm) (parameters body : Node) (parameterList : Value)
  | delay (name : String) (body : Node) (quoted : Value)

namespace Node

def isRaw : Node → Bool
  | .raw _ _ => true
  | _ => false

def pushQuoted (domain : DomainId) (steps : List Step) : Run (List Step) := do
  return [.push (← domain.create .code (.code steps))]

/-- The code that pushes a body as a value, where the code of a raw body does so already. -/
def pushBody (domain : DomainId) (body : Node) (steps : List Step) : Run (List Step) :=
  if body.isRaw then return steps else pushQuoted domain steps

mutual

def lower : Node → Run (List Step)
  | .value constant => return [.push constant]
  | .get name => return [.get name]
  | .call name args returns => do
      let steps ← lowerAll args
      return steps ++ [.call name (some args.length) (some returns)]
  | .group children => lowerAll children
  | .raw domain body => do
      let steps ← lower body
      pushQuoted domain steps
  | .lambda form _ body parameterList => do
      let steps ← lower body
      let quoted ← pushBody form.domain body steps
      return .push parameterList :: (quoted ++ [.call form.closureName (some 2) (some 1)])
  | .delay name _ quoted => return [.push quoted, .call name (some 1) (some 1)]

def lowerAll : List Node → Run (List Step)
  | [] => return []
  | node :: rest => do
      let steps ← lower node
      return steps ++ (← lowerAll rest)

end

def quote (domain : DomainId) (node : Node) : Run Value := do
  let steps ← node.lower
  domain.create .code (.code steps)

mutual

def text (naming : Naming) : Node → Written String
  | .value constant => enclosed "ValueNode(" ")" (constant.text naming .standard 0)
  | .get name => .ok ("SymbolGetNode(" ++ quoteText name ++ ")")
  | .call name args _ =>
      enclosed ("SymbolCallNode(" ++ quoteText name ++ ", ") ")" (listed (texts naming args))
  | .group children => enclosed "BracketContainerNode(" ")" (listed (texts naming children))
  | .raw _ body => enclosed "RawCodeExprNode(" ")" (text naming body)
  | .lambda _ parameters body _ =>
      enclosed "LambdaExpr(" ")" (joined " -> " [text naming parameters, text naming body])
  | .delay name _ quoted =>
      enclosed ("SymbolCallNode(" ++ quoteText name ++ ", ") ")"
        (listed [enclosed "ValueNode(" ")" (quoted.text naming .standard 0)])

def texts (naming : Naming) : List Node → List (Written String)
  | [] => []
  | node :: rest => text naming node :: texts naming rest

end

def kind : Node → String
  | .value _ => "ValueNode"
  | .get _ => "SymbolGetNode"
  | .call _ _ _ => "SymbolCallNode"
  | .group _ => "BracketContainerNode"
  | .raw _ _ => "RawCodeExprNode"
  | .lambda _ _ _ _ => "LambdaExpr"
  | .delay _ _ _ => "SymbolCallNode"

def children : Node → List Node
  | .value _ => []
  | .get _ => []
  | .call _ args _ => args
  | .group children => children
  | .raw _ body => [body]
  | .lambda _ parameters body _ => [parameters, body]
  | .delay _ _ quoted => [.value quoted]

def parameterName? : Node → Option String
  | .get name => some name
  | .value ⟨_, .symbol, .symbol name, _⟩ => some name
  | .value ⟨_, .text, .text name, _⟩ => some name
  | _ => none

end Node

namespace LambdaForm

variable (form : LambdaForm)

def parameterNodes : Node → List Node
  | .value constant => if constant.same form.null then [] else [.value constant]
  | .group children => children
  | node => [node]

/-- The names of further parameters after those seen, in order. -/
def collectNames (malformed : Failure) : List String → List Node → Except Failure (List String)
  | seen, [] => .ok seen
  | seen, node :: rest =>
      match node.parameterName? with
      | none => .error malformed
      | some name =>
          if name ∈ seen then .error (.duplicateParameter name)
          else collectNames malformed (seen ++ [name]) rest

def parameterNames (naming : Naming) (parameters : Node) : Except Failure (List String) :=
  collectNames (.worded .malformedParameters (parameters.text naming)) [] (form.parameterNodes parameters)

def build (parameters body : Node) : Run Node := do
  let names ← Run.ofExcept (form.parameterNames (← get).naming parameters)
  let symbols ← names.mapM fun name => form.domain.create .symbol (.symbol name)
  return .lambda form parameters body (← form.domain.list symbols form.null)

end LambdaForm

def Node.buildDelay (domain : DomainId) (name : String) (children : List Node) : Run Node :=
  match children with
  | [body] => do return .delay name body (← body.quote domain)
  | _ => throw (.malformedDelay children.length)

end LazyStack
