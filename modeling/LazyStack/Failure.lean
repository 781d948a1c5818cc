import LazyStack.Decimal.Integer
import LazyStack.Tag

/-!
The ways in which an operation fails. Each cause keeps what its message shows; `kind` sorts the causes
and `message` words them. A failure whose message shows what has no text is another failure, for that.
-/

namespace LazyStack

inductive Failure
  | unregistered (tag : Tag)
  | renamed (tag : Tag) (existing name : String)
  | misfit (payload typeName : String)
  | unclassified (className : String)
  | unexpected (expected description found text : String)
  | notCallable (name typeName : String)
  | notParameterList (typeName text : String)
  | openParameterList (terminator : String)
  | unbindable (name : String)
  | unnameable (typeName : String)
  | unusableGlobal (name binding : String)
  | unboundLookup (name : String)
  | unboundRebind (name : String)
  | malformedParameters (node : String)
  | duplicateParameter (name : String)
  | malformedDelay (count : Nat)
  | argumentCount (kind : String) (expected requested : Int)
  | resultCount (kind : String) (returned requested : Int)
  | closureResults (count : Nat)
  | promiseResults (count : Nat)
  | missingArguments (kind : String) (needed : Int) (found : Nat)
  | brokenContract (kind : String) (expected : Int) (found : Nat)
  | underflow
  | shortStack (needed : Int) (found : Nat)
  | tooDeep (limit : Nat)
  | immutableValue
  | immutableCell
  | unknownRegister (name : String)
  | unwritable (cause : Unwritable)
  | exhausted
  deriving DecidableEq, Repr

inductive FailureKind
  | type
  | form
  | arity
  | unbound
  | invalidSymbol
  | stack
  | recursion
  | immutable
  | register
  | conversion
  | nesting
  | budget
  deriving DecidableEq, Repr

def Failure.kind : Failure → FailureKind
  | .unregistered _ | .renamed _ _ _ | .misfit _ _ | .unclassified _ | .unexpected _ _ _ _
  | .notCallable _ _ | .notParameterList _ _ | .openParameterList _ => .type
  | .unbindable _ | .unnameable _ | .unusableGlobal _ _ => .invalidSymbol
  | .unboundLookup _ | .unboundRebind _ => .unbound
  | .malformedParameters _ | .duplicateParameter _ | .malformedDelay _ => .form
  | .argumentCount _ _ _ | .resultCount _ _ _ | .closureResults _ | .promiseResults _ => .arity
  | .missingArguments _ _ _ | .brokenContract _ _ _ | .underflow | .shortStack _ _ => .stack
  | .tooDeep _ => .recursion
  | .immutableValue | .immutableCell => .immutable
  | .unknownRegister _ => .register
  | .unwritable .longInteger => .conversion
  | .unwritable .endless => .nesting
  | .exhausted => .budget

/-- The failure that words what it shows, or else the want of its words. -/
def Failure.worded {α : Type} (wording : α → Failure) : Written α → Failure
  | .ok shown => wording shown
  | .error cause => .unwritable cause

def Failure.message : Failure → String
  | .unregistered tag => "Type " ++ tag.label ++ " is not registered in this domain"
  | .renamed tag existing name =>
      "Type " ++ tag.label ++ s!" already registered as '{existing}', cannot rename to '{name}'"
  | .misfit payload typeName => s!"Payload {payload} is not a valid {typeName}"
  | .unclassified className => s!"No registered type for {className}"
  | .unexpected expected description found text =>
      s!"Expected {expected} as {description}, got {found}: {text}"
  | .notCallable name typeName => s!"Symbol '{name}' is bound to a {typeName}, which is not callable"
  | .notParameterList typeName text =>
      s!"Expected list of symbols as first argument of 'closure', got {typeName}: {text}"
  | .openParameterList terminator =>
      s!"Expected null-terminated list of symbols, got terminator {terminator}"
  | .unbindable name => s!"Cannot bind {name} as a symbol"
  | .unnameable typeName => s!"Symbol name must be a string, got {typeName}"
  | .unusableGlobal name binding =>
      s!"Global symbol '{name}' must be bound to a callable or typed value, got {binding}"
  | .unboundLookup name => s!"Cannot lookup unbound symbol {name}"
  | .unboundRebind name => s!"Cannot set unbound symbol {name}"
  | .malformedParameters node =>
      s!"expected symbol or list of symbols on left side of lambda, got {node}"
  | .duplicateParameter name => s!"duplicate lambda parameter '{name}'"
  | .malformedDelay count => s!"'delay' expects single argument, got {count}"
  | .argumentCount kind expected requested => s!"{kind} expects {expected} argument(s), got {requested}"
  | .resultCount kind returned requested =>
      s!"{kind} returns {returned} value(s), requested {requested}"
  | .closureResults count => s!"closure body must leave exactly one result, got {count}"
  | .promiseResults count => s!"promise body must leave exactly one result, got {count}"
  | .missingArguments kind needed found =>
      s!"{kind} needs {needed} argument(s) on the stack, found {found}"
  | .brokenContract kind expected found =>
      s!"{kind} broke its stack contract: expected {expected} values, found {found}"
  | .underflow => "Stack underflow"
  | .shortStack needed found => s!"Stack underflow: need {needed} values, have {found}"
  | .tooDeep limit => s!"Maximum call depth {limit} exceeded"
  | .immutableValue => "TypedValue is immutable"
  | .immutableCell => "Cons is immutable"
  | .unknownRegister name => name
  | .unwritable .longInteger =>
      s!"Exceeds the limit ({digitLimit} digits) for integer string conversion; " ++
        "use sys.set_int_max_str_digits() to increase the limit"
  | .unwritable .endless => "maximum recursion depth exceeded"
  | .exhausted => "Evaluation ran out of budget"

end LazyStack
