import EmuControl.Wire.Schema

/-!
# Messages about configuration options

Options come from the daemon in named groups, with their presentation, and go back to it as a plain
map from names to values.
-/
namespace EmuControl.Wire

open EmuControl.Number

structure ConfigOption where
  label : String
  name : String
  value : String
  kind : Int32
  select : List String
  deriving DecidableEq, Repr

instance : Message ConfigOption where
  schema :=
    .scalar "label" 1 .always .text <|
    .scalar "name" 2 .always .text <|
    .scalar "value" 3 .always .text <|
    .scalar "type" 4 .always .int32 <|
    .scalar "select" 5 .repeated .text .done
  fields m := (m.label, m.name, m.value, m.kind, m.select, ())
  ofFields := fun (label, name, value, kind, select, ()) =>
    { label, name, value, kind, select }
  ofFields_fields _ := rfl

structure ConfigGroup where
  name : String
  options : List ConfigOption
  deriving DecidableEq, Repr

instance : Message ConfigGroup where
  schema :=
    .scalar "name" 1 .always .text <|
    .message "options" 2 .repeated (Message.schema ConfigOption) .done
  fields m := (m.name, m.options.map Message.fields, ())
  ofFields := fun (name, options, ()) =>
    { name, options := options.map Message.ofFields }
  ofFields_fields m := by simp

structure OptionGroups where
  groups : List ConfigGroup
  deriving DecidableEq, Repr

instance : Message OptionGroups where
  schema := .message "groups" 1 .repeated (Message.schema ConfigGroup) .done
  fields m := (m.groups.map Message.fields, ())
  ofFields := fun (groups, ()) =>
    { groups := groups.map Message.ofFields }
  ofFields_fields m := by simp

structure SessionOptionChange where
  sessionId : Int32
  config : SortedMap String String
  deriving DecidableEq, Repr

instance : Message SessionOptionChange where
  schema :=
    .scalar "session_id" 1 .always .int32 <|
    .textMap "config" 2 .done
  fields m := (m.sessionId, m.config, ())
  ofFields := fun (sessionId, config, ()) =>
    { sessionId, config }
  ofFields_fields _ := rfl

structure NodeOptionChange where
  sessionId : Int32
  nodeId : Int32
  config : SortedMap String String
  deriving DecidableEq, Repr

instance : Message NodeOptionChange where
  schema :=
    .scalar "session_id" 1 .always .int32 <|
    .scalar "node_id" 2 .always .int32 <|
    .textMap "config" 3 .done
  fields m := (m.sessionId, m.nodeId, m.config, ())
  ofFields := fun (sessionId, nodeId, config, ()) =>
    { sessionId, nodeId, config }
  ofFields_fields _ := rfl

/-- Mobility options of all nodes that have some, by node id. -/
structure MobilityOptions where
  configs : SortedMap Int32 OptionGroups
  deriving DecidableEq, Repr

instance : Message MobilityOptions where
  schema := .messageMap "configs" 1 (Message.schema OptionGroups) .done
  fields m := (m.configs.mapValues fun _ => Message.fields, ())
  ofFields := fun (configs, ()) =>
    { configs := configs.mapValues fun _ => Message.ofFields }
  ofFields_fields m := by simp

structure MobilityCommand where
  sessionId : Int32
  nodeId : Int32
  action : Int32
  deriving DecidableEq, Repr

instance : Message MobilityCommand where
  schema :=
    .scalar "session_id" 1 .always .int32 <|
    .scalar "node_id" 2 .always .int32 <|
    .scalar "action" 3 .always .int32 .done
  fields m := (m.sessionId, m.nodeId, m.action, ())
  ofFields := fun (sessionId, nodeId, action, ()) =>
    { sessionId, nodeId, action }
  ofFields_fields _ := rfl

structure ModelList where
  models : List String
  deriving DecidableEq, Repr

instance : Message ModelList where
  schema := .scalar "models" 1 .repeated .text .done
  fields m := (m.models, ())
  ofFields := fun (models, ()) =>
    { models }
  ofFields_fields _ := rfl

structure ModelScope where
  sessionId : Int32
  nodeId : Int32
  model : String
  deriving DecidableEq, Repr

instance : Message ModelScope where
  schema :=
    .scalar "session_id" 1 .always .int32 <|
    .scalar "node_id" 2 .always .int32 <|
    .scalar "model" 3 .always .text .done
  fields m := (m.sessionId, m.nodeId, m.model, ())
  ofFields := fun (sessionId, nodeId, model, ()) =>
    { sessionId, nodeId, model }
  ofFields_fields _ := rfl

structure ModelOptionChange where
  sessionId : Int32
  nodeId : Int32
  model : String
  config : SortedMap String String
  deriving DecidableEq, Repr

instance : Message ModelOptionChange where
  schema :=
    .scalar "session_id" 1 .always .int32 <|
    .scalar "node_id" 2 .always .int32 <|
    .scalar "model" 3 .always .text <|
    .textMap "config" 4 .done
  fields m := (m.sessionId, m.nodeId, m.model, m.config, ())
  ofFields := fun (sessionId, nodeId, model, config, ()) =>
    { sessionId, nodeId, model, config }
  ofFields_fields _ := rfl

end EmuControl.Wire
