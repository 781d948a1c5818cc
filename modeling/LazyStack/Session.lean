import LazyStack.Session.Command

/-!
Sessions. A session starts with one environment named `main` and performs steps in order, each in a
named environment. A failed step is reported and the session goes on; every step also yields the
messages that were logged during it.
-/

namespace LazyStack

def mainName : String := "main"

structure SessionStep where
  environment : String
  command : Command

structure Outcome where
  reply : Except Failure Reply
  messages : List String

structure Session where
  state : State
  registers : Registers

namespace Session

def prepare (hosts : List LibraryHost) : Run Registers := do
  let environment ← Environment.fresh none
  hosts.forM fun host => environment.installLibraryHost host
  return Registers.empty.putEnvironment mainName environment

def start (raw : Option String) (hosts : List LibraryHost) : Session :=
  match prepare hosts (State.empty (callLimit raw)) with
  | .ok registers state => ⟨state, registers⟩
  | .error _ state => ⟨state, .empty⟩

def work (step : SessionStep) : Work Reply := do
  let environment ← Run.fetch (← get).environments step.environment
  step.command.perform environment

def perform (session : Session) (step : SessionStep) : Outcome × Session :=
  let logged := session.state.log.size
  let messages (state : State) := (state.log.toList.drop logged).filterMap Event.message
  match work step session.registers session.state with
  | .ok (reply, registers) state => (⟨.ok reply, messages state⟩, ⟨state, registers⟩)
  | .error failure state => (⟨.error failure, messages state⟩, ⟨state, session.registers⟩)

def performAll (session : Session) : List SessionStep → List Outcome
  | [] => []
  | step :: rest =>
      let (outcome, next) := session.perform step
      outcome :: next.performAll rest

end Session

/-- The outcomes of all steps of a fresh session under a call-depth setting. -/
def runSession (raw : Option String) (hosts : List LibraryHost) (steps : List SessionStep) :
    List Outcome :=
  (Session.start raw hosts).performAll steps

end LazyStack
