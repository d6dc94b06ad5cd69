import EmuControl.Number.Binary

/-!
# Configuration

Options of the daemon come in groups, and all their values are text. Two sets of options have a
fixed shape of their own: that of a wireless network and that of the mobility of a node. The
location of a session ties canvas coordinates to geography.
-/
namespace EmuControl

open EmuControl.Number

structure ConfigOption where
  /-- A tag for presentation that the client passes on. -/
  kind : Int32
  label : String
  name : String
  value : String
  select : List String := []
  deriving DecidableEq, Repr

structure ConfigGroup where
  name : String
  options : List ConfigOption
  deriving DecidableEq, Repr

structure WlanConfig where
  bandwidth : Option String
  delay : Option String
  error : Option String
  jitter : Option String
  range : Option String
  deriving DecidableEq, Repr

structure MobilityConfig where
  file : Option String
  refreshMs : Option Int64
  autostart : Option String
  loop : Option String
  map : Option String
  scriptPause : Option String
  scriptStart : Option String
  scriptStop : Option String
  deriving DecidableEq, Repr

structure CanvasPosition where
  x : Option Binary64
  y : Option Binary64
  z : Option Binary64
  deriving DecidableEq, Repr

structure GeoLocation where
  latitude : Option Binary64
  longitude : Option Binary64
  altitude : Option Binary64
  deriving DecidableEq, Repr

/-- The reference point of a session. -/
structure LocationConfig where
  scale : Option Binary64
  position : CanvasPosition
  location : GeoLocation
  deriving DecidableEq, Repr

/-- What a mobility script can be told to do. -/
inductive MobilityAction where
  | start
  | pause
  | stop
  deriving DecidableEq, Repr

namespace MobilityAction

def all : List MobilityAction := [.start, .pause, .stop]

def name : MobilityAction → String
  | .start => "start"
  | .pause => "pause"
  | .stop => "stop"

/-- The action of a name, ASCII letters of either case being alike. -/
def parse? (s : String) : Option MobilityAction :=
  all.find? fun action => action.name == s.toLower

/-- What is said of a text that names no action. -/
def unknownMessage (s : String) : String :=
  "unknown mobility action: " ++ s.toLower

end MobilityAction

end EmuControl
