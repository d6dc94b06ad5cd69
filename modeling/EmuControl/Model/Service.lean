import EmuControl.Order.SortedMap

/-!
# Services

A service is a program that the daemon runs on nodes. Its data can be changed for a single node.
-/
namespace EmuControl

/-- How the daemon finds out that a service is up. -/
inductive ValidationMode where
  | blocking
  | nonBlocking
  | timer
  deriving DecidableEq, Repr

namespace ValidationMode

def all : List ValidationMode := [.blocking, .nonBlocking, .timer]

def name : ValidationMode → String
  | .blocking => "blocking"
  | .nonBlocking => "non_blocking"
  | .timer => "timer"

end ValidationMode

/-- A service as it is set up on a node. -/
structure ServiceData where
  executables : List String
  dependencies : List String
  dirs : List String
  configs : List String
  startup : List String
  validate : List String
  shutdown : List String
  metadata : String
  validationMode : ValidationMode
  /-- Seconds in text; an integer on the wire. -/
  validationTimer : String
  deriving DecidableEq, Repr

structure ServiceFile where
  name : String
  data : String
  deriving DecidableEq, Repr

inductive ServiceAction where
  | start
  | stop
  | restart
  | validate
  deriving DecidableEq, Repr

namespace ServiceAction

def all : List ServiceAction := [.start, .stop, .restart, .validate]

def name : ServiceAction → String
  | .start => "start"
  | .stop => "stop"
  | .restart => "restart"
  | .validate => "validate"

/-- The action of a name, ASCII letters of either case being alike. -/
def parse? (s : String) : Option ServiceAction :=
  all.find? fun action => action.name == s.toLower

/-- What is said of a text that names no action. -/
def unknownMessage (s : String) : String :=
  "unknown service action: " ++ s.toLower

end ServiceAction

/-- The services of each group, in the order of the catalogue. -/
abbrev ServiceGroups := SortedMap String (List String)

/-- The services that each node model has by default. -/
abbrev ServiceDefaults := SortedMap String (SortedSet String)

end EmuControl
