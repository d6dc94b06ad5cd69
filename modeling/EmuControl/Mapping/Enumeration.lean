import EmuControl.Mapping.Error
import EmuControl.Model.Configuration
import EmuControl.Model.Link
import EmuControl.Model.Node
import EmuControl.Model.Service
import EmuControl.Model.Session

/-!
# Numbers of enumeration members

Members of enumerations are numbers on the wire. A number that belongs to no member is refused,
never taken for a default.
-/
namespace EmuControl

namespace SessionState

def number : SessionState → Int32
  | .undefined => 0
  | .definition => 1
  | .configuration => 2
  | .instantiation => 3
  | .runtime => 4
  | .datacollect => 5
  | .shutdown => 6

def ofNumber (n : Int32) : Mapped SessionState :=
  .member "session state" all number n

end SessionState

namespace NodeKind

/-- The number 2 is not in use. -/
def number : NodeKind → Int32
  | .default => 0
  | .physical => 1
  | .tbd => 3
  | .switch => 4
  | .hub => 5
  | .wirelessLan => 6
  | .rj45 => 7
  | .tunnel => 8
  | .ktunnel => 9
  | .emane => 10
  | .tapBridge => 11
  | .peerToPeer => 12
  | .controlNet => 13
  | .emaneNet => 14

def ofNumber (n : Int32) : Mapped NodeKind :=
  .member "node type" all number n

end NodeKind

namespace LinkKind

def number : LinkKind → Int32
  | .wireless => 0
  | .wired => 1

def ofNumber (n : Int32) : Mapped LinkKind :=
  .member "link type" all number n

end LinkKind

namespace ValidationMode

def number : ValidationMode → Int32
  | .blocking => 0
  | .nonBlocking => 1
  | .timer => 2

def ofNumber (n : Int32) : Mapped ValidationMode :=
  .member "validation mode" all number n

end ValidationMode

/-- The number of a service action; the daemon never sends one. -/
def ServiceAction.number : ServiceAction → Int32
  | .start => 0
  | .stop => 1
  | .restart => 2
  | .validate => 3

/-- The number of a mobility action; the daemon never sends one. -/
def MobilityAction.number : MobilityAction → Int32
  | .start => 0
  | .pause => 1
  | .stop => 2

end EmuControl
