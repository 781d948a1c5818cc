import LazyStack.Environment

/-!
Named registers of a session, one table for each kind of thing. Registering an environment also
registers its domain and its global scope under the same name, and registering a frame its scope and
its stack.
-/

namespace LazyStack

structure Registers where
  values : Table String Value
  codes : Table String (List Step)
  scopes : Table String ScopeId
  operandStacks : Table String StackId
  frames : Table String Frame
  domains : Table String DomainId
  environments : Table String Environment

namespace Registers

def empty : Registers := ⟨[], [], [], [], [], [], []⟩

variable (registers : Registers)

def putValue (name : String) (value : Value) : Registers :=
  { registers with values := registers.values.put name value }

def putCode (name : String) (steps : List Step) : Registers :=
  { registers with codes := registers.codes.put name steps }

def putScope (name : String) (scope : ScopeId) : Registers :=
  { registers with scopes := registers.scopes.put name scope }

def putStack (name : String) (stack : StackId) : Registers :=
  { registers with operandStacks := registers.operandStacks.put name stack }

def putFrame (name : String) (frame : Frame) : Registers :=
  { registers with
    frames := registers.frames.put name frame
    operandStacks := registers.operandStacks.put name frame.stack
    scopes := registers.scopes.put name frame.scope }

def putDomain (name : String) (domain : DomainId) : Registers :=
  { registers with domains := registers.domains.put name domain }

def putEnvironment (name : String) (environment : Environment) : Registers :=
  { registers with
    environments := registers.environments.put name environment
    domains := registers.domains.put name environment.domain
    scopes := registers.scopes.put name environment.globals }

end Registers

def Run.fetch {α : Type} (table : Table String α) (name : String) : Run α :=
  match table.get? name with
  | some content => return content
  | none => throw (.unknownRegister name)

end LazyStack
