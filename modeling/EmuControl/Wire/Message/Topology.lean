import EmuControl.Wire.Schema

/-!
# Messages about the emulated network

Nodes, links and hooks as they stand on the wire, the calls that add and change them, and the
snapshot of a session.
-/
namespace EmuControl.Wire

open EmuControl.Number

/-- Canvas and geographic coordinates. -/
structure Position where
  x : Option Binary32
  y : Option Binary32
  z : Option Binary32
  latitude : Option Binary32
  longitude : Option Binary32
  altitude : Option Binary32
  deriving DecidableEq, Repr

instance : Message Position where
  schema :=
    .scalar "x" 1 .optional .float <|
    .scalar "y" 2 .optional .float <|
    .scalar "z" 3 .optional .float <|
    .scalar "lat" 4 .optional .float <|
    .scalar "lon" 5 .optional .float <|
    .scalar "alt" 6 .optional .float .done
  fields m := (m.x, m.y, m.z, m.latitude, m.longitude, m.altitude, ())
  ofFields := fun (x, y, z, latitude, longitude, altitude, ()) =>
    { x, y, z, latitude, longitude, altitude }
  ofFields_fields _ := rfl

structure Node where
  id : Option Int32
  name : Option String
  kind : Int32
  model : Option String
  position : Option Position
  services : List String
  emane : Option String
  icon : Option String
  deriving DecidableEq, Repr

instance : Message Node where
  schema :=
    .scalar "id" 1 .optional .int32 <|
    .scalar "name" 2 .optional .text <|
    .scalar "type" 3 .always .int32 <|
    .scalar "model" 4 .optional .text <|
    .message "position" 5 .optional (Message.schema Position) <|
    .scalar "services" 6 .repeated .text <|
    .scalar "emane" 7 .optional .text <|
    .scalar "icon" 8 .optional .text .done
  fields m := (m.id, m.name, m.kind, m.model, m.position.map Message.fields, m.services, m.emane,
    m.icon, ())
  ofFields := fun (id, name, kind, model, position, services, emane, icon, ()) =>
    { id, name, kind, model, position := position.map Message.ofFields, services, emane, icon }
  ofFields_fields m := by simp

/-- One end of a link. -/
structure Interface where
  id : Option Int32
  name : Option String
  mac : Option String
  ip4 : Option String
  ip4Mask : Option Int32
  ip6 : Option String
  ip6Mask : Option Int32
  deriving DecidableEq, Repr

instance : Message Interface where
  schema :=
    .scalar "id" 1 .optional .int32 <|
    .scalar "name" 2 .optional .text <|
    .scalar "mac" 3 .optional .text <|
    .scalar "ip4" 4 .optional .text <|
    .scalar "ip4mask" 5 .optional .int32 <|
    .scalar "ip6" 6 .optional .text <|
    .scalar "ip6mask" 7 .optional .int32 .done
  fields m := (m.id, m.name, m.mac, m.ip4, m.ip4Mask, m.ip6, m.ip6Mask, ())
  ofFields := fun (id, name, mac, ip4, ip4Mask, ip6, ip6Mask, ()) =>
    { id, name, mac, ip4, ip4Mask, ip6, ip6Mask }
  ofFields_fields _ := rfl

/-- Shaping parameters of a link. -/
structure LinkOptions where
  opaqueData : Option String
  jitter : Option Binary32
  key : Option String
  mburst : Option Binary32
  mer : Option Binary32
  per : Option Binary32
  bandwidth : Option Binary32
  burst : Option Binary32
  delay : Option Binary32
  dup : Option Binary32
  unidirectional : Bool
  deriving DecidableEq, Repr

instance : Message LinkOptions where
  schema :=
    .scalar "opaque" 1 .optional .text <|
    .scalar "jitter" 2 .optional .float <|
    .scalar "key" 3 .optional .text <|
    .scalar "mburst" 4 .optional .float <|
    .scalar "mer" 5 .optional .float <|
    .scalar "per" 6 .optional .float <|
    .scalar "bandwidth" 7 .optional .float <|
    .scalar "burst" 8 .optional .float <|
    .scalar "delay" 9 .optional .float <|
    .scalar "dup" 10 .optional .float <|
    .scalar "unidirectional" 11 .always .bool .done
  fields m := (m.opaqueData, m.jitter, m.key, m.mburst, m.mer, m.per, m.bandwidth, m.burst,
    m.delay, m.dup, m.unidirectional, ())
  ofFields := fun (opaqueData, jitter, key, mburst, mer, per, bandwidth, burst, delay, dup,
    unidirectional, ()) =>
    { opaqueData, jitter, key, mburst, mer, per, bandwidth, burst, delay, dup, unidirectional }
  ofFields_fields _ := rfl

structure Link where
  nodeOne : Option Int32
  nodeTwo : Option Int32
  kind : Int32
  interfaceOne : Option Interface
  interfaceTwo : Option Interface
  options : Option LinkOptions
  deriving DecidableEq, Repr

instance : Message Link where
  schema :=
    .scalar "node_one_id" 1 .optional .int32 <|
    .scalar "node_two_id" 2 .optional .int32 <|
    .scalar "type" 3 .always .int32 <|
    .message "interface_one" 4 .optional (Message.schema Interface) <|
    .message "interface_two" 5 .optional (Message.schema Interface) <|
    .message "options" 6 .optional (Message.schema LinkOptions) .done
  fields m := (m.nodeOne, m.nodeTwo, m.kind, m.interfaceOne.map Message.fields,
    m.interfaceTwo.map Message.fields, m.options.map Message.fields, ())
  ofFields := fun (nodeOne, nodeTwo, kind, interfaceOne, interfaceTwo, options, ()) =>
    { nodeOne, nodeTwo, kind, interfaceOne := interfaceOne.map Message.ofFields,
      interfaceTwo := interfaceTwo.map Message.ofFields, options := options.map Message.ofFields }
  ofFields_fields m := by simp

/-- A script for a session state, as bytes. -/
structure Hook where
  state : Int32
  file : String
  data : Bytes
  deriving DecidableEq, Repr

instance : Message Hook where
  schema :=
    .scalar "state" 1 .always .int32 <|
    .scalar "file" 2 .always .text <|
    .scalar "data" 3 .always .bytes .done
  fields m := (m.state, m.file, m.data, ())
  ofFields := fun (state, file, data, ()) =>
    { state, file, data }
  ofFields_fields _ := rfl

structure NodeAddition where
  sessionId : Int32
  node : Option Node
  deriving DecidableEq, Repr

instance : Message NodeAddition where
  schema :=
    .scalar "session_id" 1 .always .int32 <|
    .message "node" 2 .optional (Message.schema Node) .done
  fields m := (m.sessionId, m.node.map Message.fields, ())
  ofFields := fun (sessionId, node, ()) =>
    { sessionId, node := node.map Message.ofFields }
  ofFields_fields m := by simp

structure NodeAdded where
  nodeId : Int32
  deriving DecidableEq, Repr

instance : Message NodeAdded where
  schema := .scalar "node_id" 1 .always .int32 .done
  fields m := (m.nodeId, ())
  ofFields := fun (nodeId, ()) =>
    { nodeId }
  ofFields_fields _ := rfl

structure NodeMove where
  sessionId : Int32
  nodeId : Int32
  position : Option Position
  deriving DecidableEq, Repr

instance : Message NodeMove where
  schema :=
    .scalar "session_id" 1 .always .int32 <|
    .scalar "node_id" 2 .always .int32 <|
    .message "position" 3 .optional (Message.schema Position) .done
  fields m := (m.sessionId, m.nodeId, m.position.map Message.fields, ())
  ofFields := fun (sessionId, nodeId, position, ()) =>
    { sessionId, nodeId, position := position.map Message.ofFields }
  ofFields_fields m := by simp

structure LinkAddition where
  sessionId : Int32
  link : Option Link
  deriving DecidableEq, Repr

instance : Message LinkAddition where
  schema :=
    .scalar "session_id" 1 .always .int32 <|
    .message "link" 2 .optional (Message.schema Link) .done
  fields m := (m.sessionId, m.link.map Message.fields, ())
  ofFields := fun (sessionId, link, ()) =>
    { sessionId, link := link.map Message.ofFields }
  ofFields_fields m := by simp

/-- A link is found by its nodes and the ids of its interfaces. -/
structure LinkEdit where
  sessionId : Int32
  nodeOne : Option Int32
  nodeTwo : Option Int32
  interfaceOne : Option Int32
  interfaceTwo : Option Int32
  options : Option LinkOptions
  deriving DecidableEq, Repr

instance : Message LinkEdit where
  schema :=
    .scalar "session_id" 1 .always .int32 <|
    .scalar "node_one_id" 2 .optional .int32 <|
    .scalar "node_two_id" 3 .optional .int32 <|
    .scalar "interface_one_id" 4 .optional .int32 <|
    .scalar "interface_two_id" 5 .optional .int32 <|
    .message "options" 6 .optional (Message.schema LinkOptions) .done
  fields m := (m.sessionId, m.nodeOne, m.nodeTwo, m.interfaceOne, m.interfaceTwo,
    m.options.map Message.fields, ())
  ofFields := fun (sessionId, nodeOne, nodeTwo, interfaceOne, interfaceTwo, options, ()) =>
    { sessionId, nodeOne, nodeTwo, interfaceOne, interfaceTwo,
      options := options.map Message.ofFields }
  ofFields_fields m := by simp

structure HookList where
  hooks : List Hook
  deriving DecidableEq, Repr

instance : Message HookList where
  schema := .message "hooks" 1 .repeated (Message.schema Hook) .done
  fields m := (m.hooks.map Message.fields, ())
  ofFields := fun (hooks, ()) =>
    { hooks := hooks.map Message.ofFields }
  ofFields_fields m := by simp

structure HookAddition where
  sessionId : Int32
  hook : Option Hook
  deriving DecidableEq, Repr

instance : Message HookAddition where
  schema :=
    .scalar "session_id" 1 .always .int32 <|
    .message "hook" 2 .optional (Message.schema Hook) .done
  fields m := (m.sessionId, m.hook.map Message.fields, ())
  ofFields := fun (sessionId, hook, ()) =>
    { sessionId, hook := hook.map Message.ofFields }
  ofFields_fields m := by simp

end EmuControl.Wire
