import LazyStack.State.Text

/-!
Domains: registers of type tags. A domain names each tag it registers once and for all, and makes the
values that carry them. A value is made only under a registered tag that fits its payload, and a truth
value only under its own tag or, when wrapped, under the narrowest registered one.
-/

namespace LazyStack

/-- Whether a payload may be put under a tag on request. -/
def Payload.fits (payload : Payload) (tag : Tag) : Bool :=
  match payload with
  | .bool _ => tag = .bool
  | _ => payload.isInstance tag

def Domain.typeName (domain : Domain) (tag : Tag) : Except Failure String :=
  match domain.names.get? tag with
  | some name => .ok name
  | none => .error (.unregistered tag)

def Domain.register (domain : Domain) (tag : Tag) (name : String) : Except Failure Domain :=
  match domain.names.get? tag with
  | some existing =>
      if existing = name then .ok domain else .error (.renamed tag existing name)
  | none => .ok { domain with names := domain.names.put tag name }

/-- The narrowest registered tag of a payload. -/
def Domain.tagFor? (domain : Domain) (payload : Payload) : Option Tag :=
  payload.classes.find? fun tag => (domain.names.get? tag).isSome

def standardNames : Table Tag String :=
  [(.null, "null"), (.bool, "bool"), (.int, "int"), (.float, "float"), (.text, "str"),
    (.symbol, "symbol"), (.cell, "cons"), (.code, "code"), (.callable, "callable")]

namespace Run

def ofExcept {α : Type} : Except Failure α → Run α
  | .ok result => pure result
  | .error failure => throw failure

def written {α : Type} : Written α → Run α
  | .ok shown => pure shown
  | .error cause => throw (.unwritable cause)

def newDomain (names : Table Tag String) : Run DomainId :=
  modifyGet fun state =>
    let id : DomainId := ⟨state.domains.size⟩
    let null : Value := ⟨id, .null, .null true, state.nextIdentity⟩
    (id, { state with
      domains := state.domains.push ⟨names, null⟩
      nextIdentity := state.nextIdentity + 1 })

/-- A domain in which only the null has a name. -/
def newBareDomain : Run DomainId :=
  newDomain [(.null, "null")]

def newStandardDomain : Run DomainId :=
  newDomain standardNames

end Run

namespace DomainId

variable (domain : DomainId)

def null : Run Value := do
  return ((← get).domain domain).null

def typeName (tag : Tag) : Run String := do
  Run.ofExcept (((← get).domain domain).typeName tag)

def register (tag : Tag) (name : String) : Run String := do
  let renamed ← Run.ofExcept (((← get).domain domain).register tag name)
  modify fun state => { state with domains := state.domains.setIfInBounds domain.index renamed }
  return name

def create (tag : Tag) (payload : Payload) : Run Value := do
  let name ← domain.typeName tag
  if payload.fits tag then
    Run.freshValue domain tag payload
  else
    throw (.worded (.misfit · name) ((← get).payloadQuoted payload))

def wrap (payload : Payload) : Run Value := do
  match payload with
  | .null true => domain.null
  | _ =>
      match ((← get).domain domain).tagFor? payload with
      | some tag => Run.freshValue domain tag payload
      | none => throw (.unclassified payload.className)

end DomainId

namespace Value

variable (value : Value)

def typeName : Run String :=
  value.domain.typeName value.tag

def expect (tag : Tag) (description : String) : Run Payload := do
  if value.tag = tag then
    return value.payload
  else
    let expected ← value.domain.typeName tag
    let found ← value.typeName
    throw (.worded (.unexpected expected description found) ((← get).valueText value))

def isCanonicalNull (state : State) : Bool :=
  value.same (state.domain value.domain).null

end Value

end LazyStack
