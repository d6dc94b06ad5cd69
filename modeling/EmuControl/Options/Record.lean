import EmuControl.Options.Schema

/-!
# Records that travel as options

A record of fixed shape is read from groups of options and written as a flat map, by way of the
values of its schema.
-/
namespace EmuControl

/-- A record whose fields are the reserved names of a schema. -/
class OptionRecord (α : Type) where
  schema : OptionSchema
  ofValues : OptionValues → α
  toValues : α → OptionValues

namespace OptionRecord

variable {α : Type} [OptionRecord α]

def ofGroups (groups : List ConfigGroup) : Mapped α := do
  let values ← (schema α).extract (flattenGroups groups)
  return ofValues values

def toMap (a : α) : OptionMap :=
  (schema α).render (toValues a)

end OptionRecord

open OptionValues in
instance : OptionRecord WlanConfig where
  schema := .wlan
  ofValues values :=
    { bandwidth := text? values "bandwidth"
      delay := text? values "delay"
      error := text? values "error"
      jitter := text? values "jitter"
      range := text? values "range" }
  toValues c :=
    let values := SortedMap.empty
    let values := setText values "bandwidth" c.bandwidth
    let values := setText values "delay" c.delay
    let values := setText values "error" c.error
    let values := setText values "jitter" c.jitter
    setText values "range" c.range

open OptionValues in
instance : OptionRecord MobilityConfig where
  schema := .mobility
  ofValues values :=
    { file := text? values "file"
      refreshMs := integer? values "refresh_ms"
      autostart := text? values "autostart"
      loop := text? values "loop"
      map := text? values "map"
      scriptPause := text? values "script_pause"
      scriptStart := text? values "script_start"
      scriptStop := text? values "script_stop" }
  toValues c :=
    let values := SortedMap.empty
    let values := setText values "file" c.file
    let values := setInteger values "refresh_ms" c.refreshMs
    let values := setText values "autostart" c.autostart
    let values := setText values "loop" c.loop
    let values := setText values "map" c.map
    let values := setText values "script_pause" c.scriptPause
    let values := setText values "script_start" c.scriptStart
    setText values "script_stop" c.scriptStop

end EmuControl
