import EmuControl.Number.Binary
import EmuControl.Order.SortedMap

/-!
# Nodes of an emulated network

Every property of a node but its kind may be left open. An open property is not the same as a zero
or an empty one: the daemon fills in what is open.
-/
namespace EmuControl

open EmuControl.Number

inductive NodeKind where
  | default
  | physical
  | tbd
  | switch
  | hub
  | wirelessLan
  | rj45
  | tunnel
  | ktunnel
  | emane
  | tapBridge
  | peerToPeer
  | controlNet
  | emaneNet
  deriving DecidableEq, Repr

namespace NodeKind

def all : List NodeKind :=
  [.default, .physical, .tbd, .switch, .hub, .wirelessLan, .rj45, .tunnel, .ktunnel, .emane,
   .tapBridge, .peerToPeer, .controlNet, .emaneNet]

def name : NodeKind → String
  | .default => "default"
  | .physical => "physical"
  | .tbd => "tbd"
  | .switch => "switch"
  | .hub => "hub"
  | .wirelessLan => "wireless_lan"
  | .rj45 => "rj45"
  | .tunnel => "tunnel"
  | .ktunnel => "ktunnel"
  | .emane => "emane"
  | .tapBridge => "tap_bridge"
  | .peerToPeer => "peer_to_peer"
  | .controlNet => "control_net"
  | .emaneNet => "emane_net"

end NodeKind

/-- Canvas coordinates of a node. -/
structure Position where
  x : Option Binary64 := none
  y : Option Binary64 := none
  deriving DecidableEq, Repr

structure Node where
  /-- Given by the client, or assigned by the daemon when it creates the node. -/
  id : Option Int32 := none
  name : Option String := none
  kind : NodeKind := .default
  position : Option Position := none
  services : SortedSet String := .empty
  /-- Name of a radio model. -/
  emane : Option String := none
  /-- Name of a platform model. -/
  model : Option String := none
  icon : Option String := none
  deriving DecidableEq, Repr

namespace Node

def isWlan (n : Node) : Bool :=
  n.kind = .wirelessLan

end Node

end EmuControl
