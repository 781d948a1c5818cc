/-!
Type tags. A domain names the tags that it registers, and every value carries one of them. `label` is
the fixed name of a tag, which messages show where no domain has named it. An abstract tag is the class of
no payload, but counts the classes of the given labels as its own.
-/

namespace LazyStack

inductive Tag
  | null
  | bool
  | int
  | float
  | text
  | symbol
  | cell
  | code
  | callable
  | fixed
  | closure
  | promise
  | object
  | bytes
  | abstract (name : String) (members : List String)
  deriving DecidableEq, Repr

def Tag.label : Tag → String
  | .null => "NullType"
  | .bool => "bool"
  | .int => "int"
  | .float => "float"
  | .text => "str"
  | .symbol => "Symbol"
  | .cell => "Cons"
  | .code => "Code"
  | .callable => "Callable"
  | .fixed => "FixedCallable"
  | .closure => "Closure"
  | .promise => "Promise"
  | .object => "object"
  | .bytes => "bytes"
  | .abstract name _ => name

def Tag.members : Tag → List String
  | .abstract _ members => members
  | _ => []

def Tag.concrete : List Tag :=
  [.null, .bool, .int, .float, .text, .symbol, .cell, .code, .callable, .fixed, .closure, .promise,
    .object, .bytes]

def Tag.ofLabel? (label : String) : Option Tag :=
  Tag.concrete.find? fun tag => tag.label = label

end LazyStack
