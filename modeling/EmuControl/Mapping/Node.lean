import EmuControl.Mapping.Enumeration
import EmuControl.Wire.Message.Topology

/-!
# Nodes on the wire

What is open in the model is not sent. Coordinates have 64 bits in the model and 32 bits on the
wire: they are narrowed on the way out and widened on the way in.
-/
namespace EmuControl

open EmuControl.Number

namespace Position

def toWire (p : Position) : Wire.Position :=
  { x := p.x.map Binary64.narrow
    y := p.y.map Binary64.narrow
    z := none
    latitude := none
    longitude := none
    altitude := none }

/-- Only the canvas coordinates; the others belong to the location of the session. -/
def ofWire (p : Wire.Position) : Position :=
  { x := p.x.map Binary32.widen
    y := p.y.map Binary32.widen }

end Position

namespace Node

/-- Services are sent in ascending order. -/
def toWire (n : Node) : Wire.Node :=
  { id := n.id
    name := n.name
    kind := n.kind.number
    model := n.model
    position := n.position.map Position.toWire
    services := SortedSet.toList n.services
    emane := n.emane
    icon := n.icon }

def ofWire (n : Wire.Node) : Mapped Node := do
  let kind ← NodeKind.ofNumber n.kind
  return {
    id := n.id
    name := n.name
    kind
    position := n.position.map Position.ofWire
    services := SortedSet.ofList n.services
    emane := n.emane
    model := n.model
    icon := n.icon }

end Node

end EmuControl
