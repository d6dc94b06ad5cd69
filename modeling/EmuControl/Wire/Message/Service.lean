import EmuControl.Wire.Schema

/-!
# Messages about services

The catalogue of services, the defaults of node models, and the services of single nodes with their
files.
-/
namespace EmuControl.Wire

open EmuControl.Number

structure Service where
  group : String
  name : String
  deriving DecidableEq, Repr

instance : Message Service where
  schema :=
    .scalar "group" 1 .always .text <|
    .scalar "name" 2 .always .text .done
  fields m := (m.group, m.name, ())
  ofFields := fun (group, name, ()) =>
    { group, name }
  ofFields_fields _ := rfl

structure ServiceDefaults where
  nodeType : String
  services : List String
  deriving DecidableEq, Repr

instance : Message ServiceDefaults where
  schema :=
    .scalar "node_type" 1 .always .text <|
    .scalar "services" 2 .repeated .text .done
  fields m := (m.nodeType, m.services, ())
  ofFields := fun (nodeType, services, ()) =>
    { nodeType, services }
  ofFields_fields _ := rfl

structure ServiceData where
  executables : List String
  dependencies : List String
  dirs : List String
  configs : List String
  startup : List String
  validate : List String
  validationMode : Int32
  validationTimer : Int32
  shutdown : List String
  metadata : String
  deriving DecidableEq, Repr

instance : Message ServiceData where
  schema :=
    .scalar "executables" 1 .repeated .text <|
    .scalar "dependencies" 2 .repeated .text <|
    .scalar "dirs" 3 .repeated .text <|
    .scalar "configs" 4 .repeated .text <|
    .scalar "startup" 5 .repeated .text <|
    .scalar "validate" 6 .repeated .text <|
    .scalar "validation_mode" 7 .always .int32 <|
    .scalar "validation_timer" 8 .always .int32 <|
    .scalar "shutdown" 9 .repeated .text <|
    .scalar "meta" 10 .always .text .done
  fields m := (m.executables, m.dependencies, m.dirs, m.configs, m.startup, m.validate,
    m.validationMode, m.validationTimer, m.shutdown, m.metadata, ())
  ofFields := fun (executables, dependencies, dirs, configs, startup, validate, validationMode,
    validationTimer, shutdown, metadata, ()) =>
    { executables, dependencies, dirs, configs, startup, validate, validationMode,
      validationTimer, shutdown, metadata }
  ofFields_fields _ := rfl

structure ServiceList where
  services : List Service
  deriving DecidableEq, Repr

instance : Message ServiceList where
  schema := .message "services" 1 .repeated (Message.schema Service) .done
  fields m := (m.services.map Message.fields, ())
  ofFields := fun (services, ()) =>
    { services := services.map Message.ofFields }
  ofFields_fields m := by simp

structure ServiceDefaultsList where
  defaults : List ServiceDefaults
  deriving DecidableEq, Repr

instance : Message ServiceDefaultsList where
  schema := .message "defaults" 1 .repeated (Message.schema ServiceDefaults) .done
  fields m := (m.defaults.map Message.fields, ())
  ofFields := fun (defaults, ()) =>
    { defaults := defaults.map Message.ofFields }
  ofFields_fields m := by simp

structure ServiceDefaultsChange where
  sessionId : Int32
  defaults : List ServiceDefaults
  deriving DecidableEq, Repr

instance : Message ServiceDefaultsChange where
  schema :=
    .scalar "session_id" 1 .always .int32 <|
    .message "defaults" 2 .repeated (Message.schema ServiceDefaults) .done
  fields m := (m.sessionId, m.defaults.map Message.fields, ())
  ofFields := fun (sessionId, defaults, ()) =>
    { sessionId, defaults := defaults.map Message.ofFields }
  ofFields_fields m := by simp

/-- The service of a node that a call is about. -/
structure ServiceScope where
  sessionId : Int32
  nodeId : Int32
  service : String
  deriving DecidableEq, Repr

instance : Message ServiceScope where
  schema :=
    .scalar "session_id" 1 .always .int32 <|
    .scalar "node_id" 2 .always .int32 <|
    .scalar "service" 3 .always .text .done
  fields m := (m.sessionId, m.nodeId, m.service, ())
  ofFields := fun (sessionId, nodeId, service, ()) =>
    { sessionId, nodeId, service }
  ofFields_fields _ := rfl

structure NodeService where
  service : Option ServiceData
  deriving DecidableEq, Repr

instance : Message NodeService where
  schema := .message "service" 1 .optional (Message.schema ServiceData) .done
  fields m := (m.service.map Message.fields, ())
  ofFields := fun (service, ()) =>
    { service := service.map Message.ofFields }
  ofFields_fields m := by simp

structure NodeServiceChange where
  sessionId : Int32
  nodeId : Int32
  service : String
  startup : List String
  validate : List String
  shutdown : List String
  deriving DecidableEq, Repr

instance : Message NodeServiceChange where
  schema :=
    .scalar "session_id" 1 .always .int32 <|
    .scalar "node_id" 2 .always .int32 <|
    .scalar "service" 3 .always .text <|
    .scalar "startup" 4 .repeated .text <|
    .scalar "validate" 5 .repeated .text <|
    .scalar "shutdown" 6 .repeated .text .done
  fields m := (m.sessionId, m.nodeId, m.service, m.startup, m.validate, m.shutdown, ())
  ofFields := fun (sessionId, nodeId, service, startup, validate, shutdown, ()) =>
    { sessionId, nodeId, service, startup, validate, shutdown }
  ofFields_fields _ := rfl

structure ServiceFileScope where
  sessionId : Int32
  nodeId : Int32
  service : String
  file : String
  deriving DecidableEq, Repr

instance : Message ServiceFileScope where
  schema :=
    .scalar "session_id" 1 .always .int32 <|
    .scalar "node_id" 2 .always .int32 <|
    .scalar "service" 3 .always .text <|
    .scalar "file" 4 .always .text .done
  fields m := (m.sessionId, m.nodeId, m.service, m.file, ())
  ofFields := fun (sessionId, nodeId, service, file, ()) =>
    { sessionId, nodeId, service, file }
  ofFields_fields _ := rfl

structure ServiceFileChange where
  sessionId : Int32
  nodeId : Int32
  service : String
  file : String
  data : Bytes
  deriving DecidableEq, Repr

instance : Message ServiceFileChange where
  schema :=
    .scalar "session_id" 1 .always .int32 <|
    .scalar "node_id" 2 .always .int32 <|
    .scalar "service" 3 .always .text <|
    .scalar "file" 4 .always .text <|
    .scalar "data" 5 .always .bytes .done
  fields m := (m.sessionId, m.nodeId, m.service, m.file, m.data, ())
  ofFields := fun (sessionId, nodeId, service, file, data, ()) =>
    { sessionId, nodeId, service, file, data }
  ofFields_fields _ := rfl

structure ServiceCommand where
  sessionId : Int32
  nodeId : Int32
  service : String
  action : Int32
  deriving DecidableEq, Repr

instance : Message ServiceCommand where
  schema :=
    .scalar "session_id" 1 .always .int32 <|
    .scalar "node_id" 2 .always .int32 <|
    .scalar "service" 3 .always .text <|
    .scalar "action" 4 .always .int32 .done
  fields m := (m.sessionId, m.nodeId, m.service, m.action, ())
  ofFields := fun (sessionId, nodeId, service, action, ()) =>
    { sessionId, nodeId, service, action }
  ofFields_fields _ := rfl

end EmuControl.Wire
