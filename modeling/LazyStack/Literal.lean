import LazyStack.Decimal.FloatText
import LazyStack.Decimal.Integer
import LazyStack.Text.Quoted

/-!
Literals: plain data from outside that no domain has tagged. A literal may stand where a name is
wanted, but only a text is a name; the others are shown in the message that refuses them. What reads
literals refuses integers that are not short.
-/

namespace LazyStack

inductive Literal
  | null
  | bool (value : Bool)
  | int (value : Int) (short : IsShort value)
  | float (bits : UInt64)
  | text (value : String)
  | list (items : List Literal)
  | record (fields : List (String × Literal))

def boolText (value : Bool) : String :=
  if value then "True" else "False"

mutual

def Literal.quoted : Literal → String
  | .null => "None"
  | .bool value => boolText value
  | .int value _ => String.ofList (integerDigits value)
  | .float bits => floatText bits
  | .text value => quoteText value
  | .list items => "[" ++ String.intercalate ", " (Literal.quotedItems items) ++ "]"
  | .record fields => "\x7b" ++ String.intercalate ", " (Literal.quotedFields fields) ++ "\x7d"

def Literal.quotedItems : List Literal → List String
  | [] => []
  | item :: rest => item.quoted :: Literal.quotedItems rest

def Literal.quotedFields : List (String × Literal) → List String
  | [] => []
  | (name, value) :: rest => (quoteText name ++ ": " ++ value.quoted) :: Literal.quotedFields rest

end

def Literal.bare : Literal → String
  | .text value => value
  | other => other.quoted

def Literal.typeName : Literal → String
  | .null => "NoneType"
  | .bool _ => "bool"
  | .int _ _ => "int"
  | .float _ => "float"
  | .text _ => "str"
  | .list _ => "list"
  | .record _ => "dict"

def Literal.name? : Literal → Option String
  | .text value => some value
  | _ => none

end LazyStack
