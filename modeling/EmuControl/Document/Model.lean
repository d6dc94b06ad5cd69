import EmuControl.Document.Record
import EmuControl.Model.Configuration
import EmuControl.Model.Hook
import EmuControl.Model.Service

/-!
# The model in documents

How each record of the model reads and writes: the names of its fields in order, and which of them
may be missing. Open fields of nodes, links and what they consist of are left out; those of
configuration records are written as `null`.
-/
namespace EmuControl

open FieldReader

instance : Readable SessionState := ⟨readMember SessionState.all SessionState.name⟩
instance : Readable NodeKind := ⟨readMember NodeKind.all NodeKind.name⟩
instance : Readable LinkKind := ⟨readMember LinkKind.all LinkKind.name⟩
instance : Readable ValidationMode := ⟨readMember ValidationMode.all ValidationMode.name⟩
instance : Readable ServiceAction := ⟨readMember ServiceAction.all ServiceAction.name⟩
instance : Readable MobilityAction := ⟨readMember MobilityAction.all MobilityAction.name⟩

instance : Writable SessionState := ⟨fun s => .text s.name⟩
instance : Writable NodeKind := ⟨fun k => .text k.name⟩
instance : Writable LinkKind := ⟨fun k => .text k.name⟩
instance : Writable ValidationMode := ⟨fun m => .text m.name⟩
instance : Writable ServiceAction := ⟨fun a => .text a.name⟩
instance : Writable MobilityAction := ⟨fun a => .text a.name⟩

instance : Readable Position where
  read dialect := readRecord ["x", "y"] (do
    let x ← optional (read dialect)
    let y ← optional (read dialect)
    return { x, y }) dialect

instance : Writable Position where
  write p := .table (openField "x" p.x ++ openField "y" p.y)

instance : Readable Node where
  read dialect := readRecord
    ["id", "name", "type", "position", "services", "emane", "model", "icon"] (do
      let id ← optional (read dialect)
      let name ← optional (read dialect)
      let kind ← defaulted .default (read dialect)
      let position ← optional (read dialect)
      let services ← defaulted .empty (read dialect)
      let emane ← optional (read dialect)
      let model ← optional (read dialect)
      let icon ← optional (read dialect)
      return { id, name, kind, position, services, emane, model, icon }) dialect

/-- An empty set of services is left out. -/
instance : Writable Node where
  write n := .table
    (openField "id" n.id ++ openField "name" n.name ++ field "type" n.kind ++
      openField "position" n.position ++
      (if n.services.isEmpty then [] else field "services" n.services) ++
      openField "emane" n.emane ++ openField "model" n.model ++ openField "icon" n.icon)

instance : Readable Interface where
  read dialect := readRecord ["id", "name", "mac", "ip4", "ip4_mask", "ip6", "ip6_mask"] (do
    let id ← optional (read dialect)
    let name ← optional (read dialect)
    let mac ← optional (read dialect)
    let ip4 ← optional (read dialect)
    let ip4Mask ← optional (read dialect)
    let ip6 ← optional (read dialect)
    let ip6Mask ← optional (read dialect)
    return { id, name, mac, ip4, ip4Mask, ip6, ip6Mask }) dialect

instance : Writable Interface where
  write i := .table
    (openField "id" i.id ++ openField "name" i.name ++ openField "mac" i.mac ++
      openField "ip4" i.ip4 ++ openField "ip4_mask" i.ip4Mask ++ openField "ip6" i.ip6 ++
      openField "ip6_mask" i.ip6Mask)

instance : Readable LinkOptions where
  read dialect := readRecord
    ["bandwidth", "burst", "delay", "jitter", "dup", "per", "mburst", "mer", "opaque", "key",
     "unidirectional"] (do
      let bandwidth ← optional (read dialect)
      let burst ← optional (read dialect)
      let delay ← optional (read dialect)
      let jitter ← optional (read dialect)
      let dup ← optional (read dialect)
      let per ← optional (read dialect)
      let mburst ← optional (read dialect)
      let mer ← optional (read dialect)
      let opaqueData ← optional (read dialect)
      let key ← optional (read dialect)
      let unidirectional ← defaulted 0 (read dialect)
      return { bandwidth, burst, delay, jitter, dup, per, mburst, mer, opaqueData, key,
               unidirectional }) dialect

instance : Writable LinkOptions where
  write o := .table
    (openField "bandwidth" o.bandwidth ++ openField "burst" o.burst ++ openField "delay" o.delay ++
      openField "jitter" o.jitter ++ openField "dup" o.dup ++ openField "per" o.per ++
      openField "mburst" o.mburst ++ openField "mer" o.mer ++ openField "opaque" o.opaqueData ++
      openField "key" o.key ++ field "unidirectional" o.unidirectional)

instance : Readable Link where
  read dialect := readRecord
    ["node_one", "node_two", "interface_one", "interface_two", "options", "type"] (do
      let nodeOne ← optional (read dialect)
      let nodeTwo ← optional (read dialect)
      let interfaceOne ← optional (read dialect)
      let interfaceTwo ← optional (read dialect)
      let options ← optional (read dialect)
      let kind ← defaulted .wired (read dialect)
      return { nodeOne, nodeTwo, interfaceOne, interfaceTwo, options, kind }) dialect

instance : Writable Link where
  write l := .table
    (openField "node_one" l.nodeOne ++ openField "node_two" l.nodeTwo ++
      openField "interface_one" l.interfaceOne ++ openField "interface_two" l.interfaceTwo ++
      openField "options" l.options ++ field "type" l.kind)

instance : Readable Hook where
  read dialect := readRecord ["state", "file", "data"] (do
    let state ← required (read dialect)
    let file ← required (read dialect)
    let data ← defaulted "" (read dialect)
    return { state, file, data }) dialect

instance : Writable Hook where
  write h := .table (field "state" h.state ++ field "file" h.file ++ field "data" h.data)

instance : Readable SessionSummary where
  read dialect := readRecord ["id", "state", "node_count"] (do
    let id ← required (read dialect)
    let state ← required (read dialect)
    let nodeCount ← required (read dialect)
    return { id, state, nodeCount }) dialect

instance : Writable SessionSummary where
  write s := .table
    (field "id" s.id ++ field "state" s.state ++ field "node_count" s.nodeCount)

instance : Readable Session where
  read dialect := readRecord ["id", "state", "nodes", "links"] (do
    let id ← required (read dialect)
    let state ← required (read dialect)
    let nodes ← required (read dialect)
    let links ← required (read dialect)
    return { id, state, nodes, links }) dialect

instance : Writable Session where
  write s := .table
    (field "id" s.id ++ field "state" s.state ++ field "nodes" s.nodes ++ field "links" s.links)

instance : Readable SessionContext where
  read dialect := readRecord ["id", "state"] (do
    let id ← required (read dialect)
    let state ← required (read dialect)
    return { id, state }) dialect

instance : Writable SessionContext where
  write c := .table (field "id" c.id ++ field "state" c.state)

instance : Readable ConfigOption where
  read dialect := readRecord ["option_type", "label", "name", "value", "select"] (do
    let kind ← required (read dialect)
    let label ← required (read dialect)
    let name ← required (read dialect)
    let value ← required (read dialect)
    let select ← defaulted [] (read dialect)
    return { kind, label, name, value, select }) dialect

instance : Writable ConfigOption where
  write o := .table
    (field "option_type" o.kind ++ field "label" o.label ++ field "name" o.name ++
      field "value" o.value ++ field "select" o.select)

instance : Readable ConfigGroup where
  read dialect := readRecord ["name", "options"] (do
    let name ← required (read dialect)
    let options ← required (read dialect)
    return { name, options }) dialect

instance : Writable ConfigGroup where
  write g := .table (field "name" g.name ++ field "options" g.options)

instance : Readable WlanConfig where
  read dialect := readRecord ["bandwidth", "delay", "error", "jitter", "range"] (do
    let bandwidth ← placed (read dialect)
    let delay ← placed (read dialect)
    let error ← placed (read dialect)
    let jitter ← placed (read dialect)
    let range ← placed (read dialect)
    return { bandwidth, delay, error, jitter, range }) dialect

instance : Writable WlanConfig where
  write c := .table
    (field "bandwidth" c.bandwidth ++ field "delay" c.delay ++ field "error" c.error ++
      field "jitter" c.jitter ++ field "range" c.range)

instance : Readable MobilityConfig where
  read dialect := readRecord
    ["file", "refresh_ms", "autostart", "loop", "map", "script_pause", "script_start",
     "script_stop"] (do
      let file ← placed (read dialect)
      let refreshMs ← placed (read dialect)
      let autostart ← placed (read dialect)
      let loop ← placed (read dialect)
      let map ← placed (read dialect)
      let scriptPause ← placed (read dialect)
      let scriptStart ← placed (read dialect)
      let scriptStop ← placed (read dialect)
      return { file, refreshMs, autostart, loop, map, scriptPause, scriptStart,
               scriptStop }) dialect

instance : Writable MobilityConfig where
  write c := .table
    (field "file" c.file ++ field "refresh_ms" c.refreshMs ++ field "autostart" c.autostart ++
      field "loop" c.loop ++ field "map" c.map ++ field "script_pause" c.scriptPause ++
      field "script_start" c.scriptStart ++ field "script_stop" c.scriptStop)

instance : Readable CanvasPosition where
  read dialect := readRecord ["x", "y", "z"] (do
    let x ← placed (read dialect)
    let y ← placed (read dialect)
    let z ← placed (read dialect)
    return { x, y, z }) dialect

instance : Writable CanvasPosition where
  write p := .table (field "x" p.x ++ field "y" p.y ++ field "z" p.z)

instance : Readable GeoLocation where
  read dialect := readRecord ["latitude", "longitude", "altitude"] (do
    let latitude ← placed (read dialect)
    let longitude ← placed (read dialect)
    let altitude ← placed (read dialect)
    return { latitude, longitude, altitude }) dialect

instance : Writable GeoLocation where
  write l := .table
    (field "latitude" l.latitude ++ field "longitude" l.longitude ++ field "altitude" l.altitude)

instance : Readable LocationConfig where
  read dialect := readRecord ["scale", "position", "location"] (do
    let scale ← placed (read dialect)
    let position ← required (read dialect)
    let location ← required (read dialect)
    return { scale, position, location }) dialect

instance : Writable LocationConfig where
  write c := .table
    (field "scale" c.scale ++ field "position" c.position ++ field "location" c.location)

instance : Readable ServiceData where
  read dialect := readRecord
    ["executables", "dependencies", "dirs", "configs", "startup", "validate", "shutdown", "meta",
     "validation_mode", "validation_timer"] (do
      let executables ← required (read dialect)
      let dependencies ← required (read dialect)
      let dirs ← required (read dialect)
      let configs ← required (read dialect)
      let startup ← required (read dialect)
      let validate ← required (read dialect)
      let shutdown ← required (read dialect)
      let metadata ← required (read dialect)
      let validationMode ← required (read dialect)
      let validationTimer ← required (read dialect)
      return { executables, dependencies, dirs, configs, startup, validate, shutdown, metadata,
               validationMode, validationTimer }) dialect

instance : Writable ServiceData where
  write d := .table
    (field "executables" d.executables ++ field "dependencies" d.dependencies ++
      field "dirs" d.dirs ++ field "configs" d.configs ++ field "startup" d.startup ++
      field "validate" d.validate ++ field "shutdown" d.shutdown ++ field "meta" d.metadata ++
      field "validation_mode" d.validationMode ++ field "validation_timer" d.validationTimer)

instance : Readable ServiceFile where
  read dialect := readRecord ["name", "data"] (do
    let name ← required (read dialect)
    let data ← required (read dialect)
    return { name, data }) dialect

instance : Writable ServiceFile where
  write f := .table (field "name" f.name ++ field "data" f.data)

end EmuControl
