/-!
# Sessions

A session of the daemon goes through a fixed set of states. A client works on one session at a time
and keeps the session's id together with the state that the daemon acknowledged last.
-/
namespace EmuControl

/-- Stages in the life of a session. -/
inductive SessionState where
  | undefined
  | definition
  | configuration
  | instantiation
  | runtime
  | datacollect
  | shutdown
  deriving DecidableEq, Repr, Inhabited

namespace SessionState

def all : List SessionState :=
  [.undefined, .definition, .configuration, .instantiation, .runtime, .datacollect, .shutdown]

def name : SessionState → String
  | .undefined => "UNDEFINED"
  | .definition => "DEFINITION"
  | .configuration => "CONFIGURATION"
  | .instantiation => "INSTANTIATION"
  | .runtime => "RUNTIME"
  | .datacollect => "DATACOLLECT"
  | .shutdown => "SHUTDOWN"

/-- The state of a name, ASCII letters of either case being alike. -/
def parse? (s : String) : Option SessionState :=
  all.find? fun state => state.name.toLower == s.toLower

/-- What is said of a text that names no state. -/
def unknownMessage (s : String) : String :=
  "unknown session state: " ++ s

end SessionState

/-- The session that operations are about, with its last acknowledged state. -/
structure SessionContext where
  id : Int32
  state : SessionState
  deriving DecidableEq, Repr

namespace SessionContext

def isRunning (ctx : SessionContext) : Bool :=
  ctx.state = .runtime

end SessionContext

structure SessionSummary where
  id : Int32
  state : SessionState
  nodeCount : Int32
  deriving DecidableEq, Repr

end EmuControl
