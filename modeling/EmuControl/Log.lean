/-!
# Log events

Programs tell what they do in events. An event has a level, the component that it comes from, a
message, and for a call to the daemon the name of the procedure.
-/
namespace EmuControl.Log

/-- Levels from the most to the least important. -/
inductive Level where
  | error
  | warn
  | info
  | debug
  | trace
  deriving DecidableEq, Repr

namespace Level

def all : List Level := [.error, .warn, .info, .debug, .trace]

def rank : Level → Nat
  | .error => 0
  | .warn => 1
  | .info => 2
  | .debug => 3
  | .trace => 4

/-- The name in a configuration file. -/
def name : Level → String
  | .error => "error"
  | .warn => "warn"
  | .info => "info"
  | .debug => "debug"
  | .trace => "trace"

/-- The name in a log. -/
def label (l : Level) : String :=
  l.name.toUpper

def ofName? (s : String) : Option Level :=
  all.find? fun l => l.name = s

end Level

/-- Parts of the program that log. -/
inductive Component where
  | client
  | orchestrator
  | remote
  | connection
  | workflow
  | serviceUpdate
  deriving DecidableEq, Repr

/-- The path under which a component logs. -/
def Component.path : Component → String
  | .client => "netemu_connect::client"
  | .orchestrator => "netemu_connect::orchestrator"
  | .remote => "netemu_connect::remote"
  | .connection => "netemu_connect::connection"
  | .workflow => "netemu::session"
  | .serviceUpdate => "netemu::service_update"

structure Event where
  level : Level
  component : Component
  message : String
  procedure : Option String := none
  deriving DecidableEq, Repr

/-- Whether an event is important enough for a log of the given level. -/
def Event.passes (threshold : Level) (e : Event) : Bool :=
  e.level.rank ≤ threshold.rank

end EmuControl.Log
