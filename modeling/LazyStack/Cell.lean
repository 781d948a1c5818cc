import LazyStack.Domain

/-!
Lists as chains of cells. A chain goes on while the tail is tagged as a cell, and the first value that is
not so tagged ends it. A value that is no cell at all is the empty list that it ends itself.
-/

namespace LazyStack

/-- The items of a list in order, with a mark on the last. -/
def Value.walk : Value → List (Value × Bool)
  | ⟨_, .cell, .cell head tail, _⟩ => (head, tail.tag ≠ .cell) :: tail.walk
  | _ => []

def Value.elements (value : Value) : List Value :=
  value.walk.map Prod.fst

def Value.terminator : Value → Value
  | ⟨_, .cell, .cell _ tail, _⟩ => tail.terminator
  | value => value

/-- A list of the items that goes on with the rest; without items it is the rest itself. -/
def DomainId.list (domain : DomainId) (items : List Value) (rest : Value) : Run Value :=
  items.foldrM (fun item tail => domain.create .cell (.cell item tail)) rest

def Value.parameterName (element : Value) : Run String := do
  return (← element.expect .symbol "lambda args list element").symbolName

def DomainId.parameterNames (domain : DomainId) (value : Value) : Run (List String) := do
  let null ← domain.null
  if value.same null then
    return []
  else if value.tag = .cell then
    let names ← value.elements.mapM Value.parameterName
    if value.terminator.same null then
      return names
    else
      throw (.worded .openParameterList ((← get).valueText value.terminator))
  else
    throw (.worded (.notParameterList (← value.typeName)) ((← get).valueText value))

end LazyStack
