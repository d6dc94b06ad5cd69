import EmuControl.Mapping.Error
import EmuControl.Model.Configuration
import EmuControl.Wire.Message.Configuration
import EmuControl.Wire.Message.Session

/-!
# Configuration on the wire

The canvas position and the geographic location of a session share one message.
-/
namespace EmuControl

open EmuControl.Number

namespace LocationConfig

def toWire (c : LocationConfig) : Wire.Position × Option Binary32 :=
  ({ x := c.position.x.map Binary64.narrow
     y := c.position.y.map Binary64.narrow
     z := c.position.z.map Binary64.narrow
     latitude := c.location.latitude.map Binary64.narrow
     longitude := c.location.longitude.map Binary64.narrow
     altitude := c.location.altitude.map Binary64.narrow },
   c.scale.map Binary64.narrow)

/-- A missing position is one in which nothing is set. -/
def ofWire (position : Option Wire.Position) (scale : Option Binary32) : LocationConfig :=
  let p := position.getD Wire.Message.default
  { scale := scale.map Binary32.widen
    position :=
      { x := p.x.map Binary32.widen
        y := p.y.map Binary32.widen
        z := p.z.map Binary32.widen }
    location :=
      { latitude := p.latitude.map Binary32.widen
        longitude := p.longitude.map Binary32.widen
        altitude := p.altitude.map Binary32.widen } }

end LocationConfig

namespace ConfigOption

def toWire (o : ConfigOption) : Wire.ConfigOption :=
  { label := o.label
    name := o.name
    value := o.value
    kind := o.kind
    select := o.select }

def ofWire (o : Wire.ConfigOption) : ConfigOption :=
  { kind := o.kind
    label := o.label
    name := o.name
    value := o.value
    select := o.select }

end ConfigOption

namespace ConfigGroup

def toWire (g : ConfigGroup) : Wire.ConfigGroup :=
  { name := g.name
    options := g.options.map ConfigOption.toWire }

def ofWire (g : Wire.ConfigGroup) : ConfigGroup :=
  { name := g.name
    options := g.options.map ConfigOption.ofWire }

end ConfigGroup

end EmuControl
