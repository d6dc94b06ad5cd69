import EmuControl.Mapping.Enumeration
import EmuControl.Wire.Message.Service

/-!
# Services on the wire

The timer of a service is text in the model and an integer on the wire. The catalogue is a list on
the wire and is grouped in the model; defaults are a list of lists on the wire and a map of sets in
the model.
-/
namespace EmuControl

open EmuControl.Number

namespace ServiceData

def toWire (d : ServiceData) : Mapped Wire.ServiceData := do
  let validationTimer ← Mapped.int32 "validation_timer" d.validationTimer
  return {
    executables := d.executables
    dependencies := d.dependencies
    dirs := d.dirs
    configs := d.configs
    startup := d.startup
    validate := d.validate
    validationMode := d.validationMode.number
    validationTimer
    shutdown := d.shutdown
    metadata := d.metadata }

def ofWire (d : Wire.ServiceData) : Mapped ServiceData := do
  let validationMode ← ValidationMode.ofNumber d.validationMode
  return {
    executables := d.executables
    dependencies := d.dependencies
    dirs := d.dirs
    configs := d.configs
    startup := d.startup
    validate := d.validate
    shutdown := d.shutdown
    metadata := d.metadata
    validationMode
    validationTimer := writeInt32 d.validationTimer }

end ServiceData

namespace ServiceGroups

/-- The groups with one more service at the end of its group. -/
def add (groups : ServiceGroups) (s : Wire.Service) : ServiceGroups :=
  groups.insert s.group ((groups.get? s.group).getD [] ++ [s.name])

/-- The catalogue by groups, its order kept within a group. -/
def ofWire (services : List Wire.Service) : ServiceGroups :=
  services.foldl add .empty

end ServiceGroups

namespace ServiceDefaults

def toWire (d : ServiceDefaults) : List Wire.ServiceDefaults :=
  d.entries.map fun (nodeType, services) =>
    { nodeType, services := SortedSet.toList services }

/-- Of two entries for one node type the later one counts. -/
def ofWire (ds : List Wire.ServiceDefaults) : ServiceDefaults :=
  SortedMap.ofList (ds.map fun d => (d.nodeType, SortedSet.ofList d.services))

end ServiceDefaults

end EmuControl
