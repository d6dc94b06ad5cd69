import EmuControl.Mapping.Enumeration
import EmuControl.Wire.Message.Topology

/-!
# Links on the wire

Two conversions between text and integer stand here, in opposite directions: the mask of an IPv6
address is text in the model and an integer on the wire, and the key of the link options is an
integer in the model and text on the wire. The flag `unidirectional` is an integer in the model, of
which the wire keeps only whether it is 1.
-/
namespace EmuControl

open EmuControl.Number EmuControl.Text

namespace Interface

/-- The length that the text of a mask holds. -/
def maskToWire (mask : String) : Mapped Int32 :=
  .int32 "ip6_mask" mask

def maskOfWire (mask : Int32) : String :=
  writeInt32 mask

def toWire (i : Interface) : Mapped Wire.Interface := do
  let ip6Mask ← Mapped.option maskToWire i.ip6Mask
  return {
    id := i.id
    name := i.name
    mac := i.mac
    ip4 := i.ip4
    ip4Mask := i.ip4Mask
    ip6 := i.ip6
    ip6Mask }

def ofWire (i : Wire.Interface) : Interface :=
  { id := i.id
    name := i.name
    mac := i.mac
    ip4 := i.ip4
    ip4Mask := i.ip4Mask
    ip6 := i.ip6
    ip6Mask := i.ip6Mask.map maskOfWire }

end Interface

namespace LinkOptions

def toWire (o : LinkOptions) : Wire.LinkOptions :=
  { opaqueData := o.opaqueData
    jitter := o.jitter.map Binary64.narrow
    key := o.key.map writeInt32
    mburst := o.mburst.map Binary64.narrow
    mer := o.mer.map Binary64.narrow
    per := o.per.map Binary64.narrow
    bandwidth := o.bandwidth.map Binary64.narrow
    burst := o.burst.map Binary64.narrow
    delay := o.delay.map Binary64.narrow
    dup := o.dup.map Binary64.narrow
    unidirectional := o.unidirectional = 1 }

/-- The integer that the text of a key holds. A blank key is an open one. -/
def keyOfWire (text : String) : Mapped (Option Int32) :=
  let text := trim text
  if text = "" then .ok none else (Mapped.int32 "key" text).map some

def ofWire (o : Wire.LinkOptions) : Mapped LinkOptions := do
  let key ← match o.key with
    | none => pure none
    | some text => keyOfWire text
  return {
    bandwidth := o.bandwidth.map Binary32.widen
    burst := o.burst.map Binary32.widen
    delay := o.delay.map Binary32.widen
    jitter := o.jitter.map Binary32.widen
    dup := o.dup.map Binary32.widen
    per := o.per.map Binary32.widen
    mburst := o.mburst.map Binary32.widen
    mer := o.mer.map Binary32.widen
    opaqueData := o.opaqueData
    key
    unidirectional := if o.unidirectional then 1 else 0 }

end LinkOptions

namespace Link

def toWire (l : Link) : Mapped Wire.Link := do
  let interfaceOne ← Mapped.option Interface.toWire l.interfaceOne
  let interfaceTwo ← Mapped.option Interface.toWire l.interfaceTwo
  return {
    nodeOne := l.nodeOne
    nodeTwo := l.nodeTwo
    kind := l.kind.number
    interfaceOne
    interfaceTwo
    options := l.options.map LinkOptions.toWire }

/-- A bad key is reported before an unknown kind. -/
def ofWire (l : Wire.Link) : Mapped Link := do
  let options ← Mapped.option LinkOptions.ofWire l.options
  let kind ← LinkKind.ofNumber l.kind
  return {
    nodeOne := l.nodeOne
    nodeTwo := l.nodeTwo
    interfaceOne := l.interfaceOne.map Interface.ofWire
    interfaceTwo := l.interfaceTwo.map Interface.ofWire
    options
    kind }

end Link

end EmuControl
