import LazyStack.Decimal.FloatText
import LazyStack.Decimal.Integer
import LazyStack.Literal
import LazyStack.Value

/-!
Text of values. `Value.text` is the short form, which cuts long lists and deep nesting off;
`Value.tagged` adds the name of the type, and `Payload.quoted` shows a payload on its own. Code inside a
value is always shown under the default options, whatever the options of the value around it.
-/

namespace LazyStack

/-- What the text of a value needs of the state: the names of types and the text of promises. -/
structure Naming where
  typeName : DomainId → Tag → String
  promise : PromiseId → Written String

structure TextOptions where
  maxDepth : Nat
  maxItems : Nat
  deriving DecidableEq, Repr

def TextOptions.standard : TextOptions := ⟨5, 32⟩

/-- Limits that are not given are standard, and negative ones act as zero. -/
def TextOptions.ofLimits (maxDepth maxItems : Option Int) : TextOptions :=
  ⟨(maxDepth.getD TextOptions.standard.maxDepth).toNat,
    (maxItems.getD TextOptions.standard.maxItems).toNat⟩

def symbolText (name : String) : String :=
  "Symbol(" ++ quoteText name ++ ")"

def spaced (parts : List String) : String :=
  String.intercalate " " parts

def listed (parts : List (Written String)) : Written String :=
  enclosed "[" "]" (joined ", " parts)

def countText : Option Int → Written String
  | none => .ok Literal.null.quoted
  | some count => integerText count

def angled (naming : Naming) (value : Value) (text : Written String) : Written String :=
  enclosed ("<" ++ naming.typeName value.domain value.tag ++ ": ") ">" text

def Callable.text (naming : Naming) : Callable → Written String
  | .closure _ _ parameters => .ok ("<closure (" ++ spaced parameters ++ ")>")
  | .promise id => naming.promise id
  | other => .ok ("<builtin " ++ other.kind ++ ">")

mutual

def Value.text (naming : Naming) (options : TextOptions) (depth : Nat) : Value → Written String
  | ⟨_, tag, payload, _⟩ =>
      match tag with
      | .null => .ok "null"
      | .symbol => enclosed "'" "" (payload.bare naming)
      | .text => match payload with
          | .text value => .ok (quoteText value)
          | other => other.bare naming
      | .bool => match payload with
          | .bool true => .ok "true"
          | _ => .ok "false"
      | .cell =>
          if options.maxDepth ≤ depth then .ok "(...)"
          else enclosed "(" ")" (joined " " (payload.items naming options (depth + 1) 0))
      | .code => enclosed "\x7b" "\x7d" (payload.listing naming)
      | _ => payload.bare naming

def Payload.items (naming : Naming) (options : TextOptions) (depth index : Nat) :
    Payload → List (Written String)
  | .cell head ⟨domain, tag, payload, identity⟩ =>
      let shown :=
        if index < options.maxItems then [head.text naming options depth]
        else if index = options.maxItems then [.ok "..."]
        else []
      let rest := match tag with
        | .cell => payload.items naming options depth (index + 1)
        | .null => []
        | _ => [.ok ".", Value.text naming options depth ⟨domain, tag, payload, identity⟩]
      shown ++ rest
  | _ => []

def Payload.listing (naming : Naming) : Payload → Written String
  | .code steps => joined " " (Step.listings naming steps)
  | _ => .ok ""

def Payload.bare (naming : Naming) : Payload → Written String
  | .null _ => .ok "null"
  | .bool value => .ok (boolText value)
  | .int value => integerText value
  | .float bits => .ok (floatText bits)
  | .text value => .ok value
  | .symbol name => .ok name
  | .bytes values => .ok (quoteBytes values)
  | .cell head tail =>
      enclosed "Cons(" ")" (joined ", " [angled naming head (head.text naming .standard 0),
        angled naming tail (tail.text naming .standard 0)])
  | .code steps => enclosed "Code(" ")" (listed (Step.quotedAll naming steps))
  | .callable target => target.text naming

def Step.listings (naming : Naming) : List Step → List (Written String)
  | [] => []
  | step :: rest => step.listing naming :: Step.listings naming rest

def Step.quotedAll (naming : Naming) : List Step → List (Written String)
  | [] => []
  | step :: rest => step.quoted naming :: Step.quotedAll naming rest

def Step.listing (naming : Naming) : Step → Written String
  | .push value => value.text naming .standard 0
  | .get name => .ok name
  | .call name args returns => enclosed (name ++ "$") "" (joined "," [countText args, countText returns])
  | .note text => .ok ("Note(" ++ quoteText text ++ ")")

def Step.quoted (naming : Naming) : Step → Written String
  | .push value => enclosed "Value(" ")" (value.text naming .standard 0)
  | .get name => .ok ("SymbolGet(" ++ quoteText name ++ ")")
  | .call name args returns =>
      enclosed "SymbolCall(" ")" (joined ", " [.ok (quoteText name), countText args, countText returns])
  | .note text => .ok ("Note(" ++ quoteText text ++ ")")

end

def Value.tagged (naming : Naming) (value : Value) : Written String :=
  angled naming value (value.text naming .standard 0)

def Payload.quoted (naming : Naming) : Payload → Written String
  | .text value => .ok (quoteText value)
  | .symbol name => .ok (symbolText name)
  | other => other.bare naming

def Binding.text (naming : Naming) : Binding → Written String
  | .value bound => bound.text naming .standard 0
  | .callable target => target.text naming

def codeListing (naming : Naming) (steps : List Step) : Written String :=
  joined " " (Step.listings naming steps)

def codeText (naming : Naming) (steps : List Step) : Written String :=
  enclosed "Code(" ")" (listed (Step.quotedAll naming steps))

end LazyStack
