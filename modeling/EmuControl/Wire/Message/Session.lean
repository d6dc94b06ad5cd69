import EmuControl.Wire.Message.Topology

/-!
# Messages about sessions

Calls that create, list, inspect and move sessions, and the parameter messages that many calls
share: no parameters, a session, a node of a session, an acknowledgment, a document.
-/
namespace EmuControl.Wire

open EmuControl.Number

/-- Parameters of a call that needs none. -/
structure Nothing where
  deriving DecidableEq, Repr

instance : Message Nothing where
  schema := .done
  fields _ := ()
  ofFields _ := ⟨⟩
  ofFields_fields _ := rfl

/-- The session that a call is about. -/
structure SessionScope where
  sessionId : Int32
  deriving DecidableEq, Repr

instance : Message SessionScope where
  schema := .scalar "session_id" 1 .always .int32 .done
  fields m := (m.sessionId, ())
  ofFields := fun (sessionId, ()) =>
    { sessionId }
  ofFields_fields _ := rfl

/-- The node that a call is about. -/
structure NodeScope where
  sessionId : Int32
  nodeId : Int32
  deriving DecidableEq, Repr

instance : Message NodeScope where
  schema :=
    .scalar "session_id" 1 .always .int32 <|
    .scalar "node_id" 2 .always .int32 .done
  fields m := (m.sessionId, m.nodeId, ())
  ofFields := fun (sessionId, nodeId, ()) =>
    { sessionId, nodeId }
  ofFields_fields _ := rfl

/-- Whether the daemon did what it was asked for. -/
structure Acknowledgment where
  result : Bool
  deriving DecidableEq, Repr

instance : Message Acknowledgment where
  schema := .scalar "result" 1 .always .bool .done
  fields m := (m.result, ())
  ofFields := fun (result, ()) =>
    { result }
  ofFields_fields _ := rfl

/-- Data that is passed on untouched. -/
structure Document where
  data : Bytes
  deriving DecidableEq, Repr

instance : Message Document where
  schema := .scalar "data" 1 .always .bytes .done
  fields m := (m.data, ())
  ofFields := fun (data, ()) =>
    { data }
  ofFields_fields _ := rfl

structure Session where
  id : Int32
  state : Int32
  nodes : List Node
  links : List Link
  deriving DecidableEq, Repr

instance : Message Session where
  schema :=
    .scalar "id" 1 .always .int32 <|
    .scalar "state" 2 .always .int32 <|
    .message "nodes" 3 .repeated (Message.schema Node) <|
    .message "links" 4 .repeated (Message.schema Link) .done
  fields m := (m.id, m.state, m.nodes.map Message.fields, m.links.map Message.fields, ())
  ofFields := fun (id, state, nodes, links, ()) =>
    { id, state, nodes := nodes.map Message.ofFields, links := links.map Message.ofFields }
  ofFields_fields m := by simp

structure SessionSummary where
  id : Int32
  state : Int32
  nodes : Int32
  deriving DecidableEq, Repr

instance : Message SessionSummary where
  schema :=
    .scalar "id" 1 .always .int32 <|
    .scalar "state" 2 .always .int32 <|
    .scalar "nodes" 3 .always .int32 .done
  fields m := (m.id, m.state, m.nodes, ())
  ofFields := fun (id, state, nodes, ()) =>
    { id, state, nodes }
  ofFields_fields _ := rfl

structure SessionCreation where
  sessionId : Option Int32
  deriving DecidableEq, Repr

instance : Message SessionCreation where
  schema := .scalar "session_id" 1 .optional .int32 .done
  fields m := (m.sessionId, ())
  ofFields := fun (sessionId, ()) =>
    { sessionId }
  ofFields_fields _ := rfl

structure SessionCreated where
  sessionId : Int32
  state : Int32
  deriving DecidableEq, Repr

instance : Message SessionCreated where
  schema :=
    .scalar "session_id" 1 .always .int32 <|
    .scalar "state" 2 .always .int32 .done
  fields m := (m.sessionId, m.state, ())
  ofFields := fun (sessionId, state, ()) =>
    { sessionId, state }
  ofFields_fields _ := rfl

structure SessionList where
  sessions : List SessionSummary
  deriving DecidableEq, Repr

instance : Message SessionList where
  schema := .message "sessions" 1 .repeated (Message.schema SessionSummary) .done
  fields m := (m.sessions.map Message.fields, ())
  ofFields := fun (sessions, ()) =>
    { sessions := sessions.map Message.ofFields }
  ofFields_fields m := by simp

structure SessionSnapshot where
  session : Option Session
  deriving DecidableEq, Repr

instance : Message SessionSnapshot where
  schema := .message "session" 1 .optional (Message.schema Session) .done
  fields m := (m.session.map Message.fields, ())
  ofFields := fun (session, ()) =>
    { session := session.map Message.ofFields }
  ofFields_fields m := by simp

structure StateChange where
  sessionId : Int32
  state : Int32
  deriving DecidableEq, Repr

instance : Message StateChange where
  schema :=
    .scalar "session_id" 1 .always .int32 <|
    .scalar "state" 2 .always .int32 .done
  fields m := (m.sessionId, m.state, ())
  ofFields := fun (sessionId, state, ()) =>
    { sessionId, state }
  ofFields_fields _ := rfl

structure Location where
  position : Option Position
  scale : Option Binary32
  deriving DecidableEq, Repr

instance : Message Location where
  schema :=
    .message "position" 1 .optional (Message.schema Position) <|
    .scalar "scale" 2 .optional .float .done
  fields m := (m.position.map Message.fields, m.scale, ())
  ofFields := fun (position, scale, ()) =>
    { position := position.map Message.ofFields, scale }
  ofFields_fields m := by simp

structure LocationChange where
  sessionId : Int32
  position : Option Position
  scale : Option Binary32
  deriving DecidableEq, Repr

instance : Message LocationChange where
  schema :=
    .scalar "session_id" 1 .always .int32 <|
    .message "position" 2 .optional (Message.schema Position) <|
    .scalar "scale" 3 .optional .float .done
  fields m := (m.sessionId, m.position.map Message.fields, m.scale, ())
  ofFields := fun (sessionId, position, scale, ()) =>
    { sessionId, position := position.map Message.ofFields, scale }
  ofFields_fields m := by simp

/-- The session that an opened document became. -/
structure DocumentOpened where
  result : Bool
  sessionId : Int32
  deriving DecidableEq, Repr

instance : Message DocumentOpened where
  schema :=
    .scalar "result" 1 .always .bool <|
    .scalar "session_id" 2 .always .int32 .done
  fields m := (m.result, m.sessionId, ())
  ofFields := fun (result, sessionId, ()) =>
    { result, sessionId }
  ofFields_fields _ := rfl

end EmuControl.Wire
