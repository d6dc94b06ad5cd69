import EmuControl.Daemon.Program

/-!
# A scripted daemon

A daemon that accepts everything, keeps the calls it got, and can be told beforehand how to answer:
to fail the n-th call of a method, to refuse it, or to answer a method with given bytes. What is
scripted for a call comes before the given bytes, and these come before the plain answer.
-/
namespace EmuControl

open Wire

/-- What is scripted for a call. -/
inductive Outcome where
  /-- The call does not complete. -/
  | fault
  /-- The call is refused. -/
  | reject
  deriving DecidableEq, Repr

structure Recording where
  /-- The calls since the last `clear`, in order of arrival. -/
  calls : List Call := []
  /-- How many calls of each method there were since the last `clear`. -/
  counts : Method → Nat := fun _ => 0
  /-- What is scripted for the n-th call of a method. -/
  outcomes : Method → Nat → Option Outcome := fun _ _ => none
  /-- The bytes that a method is answered with. -/
  canned : Method → Option Bytes := fun _ => none
  /-- The last id that was given to a node. -/
  lastNodeId : Int32 := 0

namespace Recording

def script (r : Recording) (m : Method) (nth : Nat) (outcome : Outcome) : Recording :=
  { r with
    outcomes := fun m' n => if m' = m ∧ n = nth then some outcome else r.outcomes m' n }

/-- The `nth` call of a method, counted from 1, will not complete. -/
def failOn (r : Recording) (m : Method) (nth : Nat) : Recording :=
  r.script m nth .fault

/-- The `nth` call of a method, counted from 1, will be refused. -/
def rejectOn (r : Recording) (m : Method) (nth : Nat) : Recording :=
  r.script m nth .reject

/-- A method will be answered with the given bytes. -/
def respondWith (r : Recording) (m : Method) (bytes : Bytes) : Recording :=
  { r with canned := fun m' => if m' = m then some bytes else r.canned m' }

/-- Forgets the calls and their numbers. Scripts and given answers stay. -/
def clear (r : Recording) : Recording :=
  { r with calls := [], counts := fun _ => 0 }

def callsTo (r : Recording) (m : Method) : List Call :=
  r.calls.filter fun c => c.method = m

def count (r : Recording) (m : Method) : Nat :=
  r.counts m

/-- The answer to a call that is accepted or refused and has no answer of its own. -/
def plainResponse : (m : Method) → m.Request → (accepted : Bool) → (freshId : Int32) → m.Response
  | .createSession, r, _, _ =>
    { sessionId := r.sessionId.getD 1, state := 1 }
  | .getSession, r, _, _ =>
    { session := some { id := r.sessionId, state := 1, nodes := [], links := [] } }
  | .openXml, _, accepted, _ => { result := accepted, sessionId := if accepted then 1 else 0 }
  | .addNode, r, _, freshId => { nodeId := (r.node.bind (·.id)).getD freshId }
  | .getNodeService, _, _, _ => { service := some Message.default }
  | .getSessions, _, _, _ => Message.default
  | .getSessionOptions, _, _, _ => Message.default
  | .getSessionLocation, _, _, _ => Message.default
  | .saveXml, _, _, _ => Message.default
  | .getHooks, _, _, _ => Message.default
  | .getMobilityConfigs, _, _, _ => Message.default
  | .getMobilityConfig, _, _, _ => Message.default
  | .getWlanConfig, _, _, _ => Message.default
  | .getEmaneConfig, _, _, _ => Message.default
  | .getEmaneModels, _, _, _ => Message.default
  | .getEmaneModelConfig, _, _, _ => Message.default
  | .getServices, _, _, _ => Message.default
  | .getServiceDefaults, _, _, _ => Message.default
  | .getNodeServiceFile, _, _, _ => Message.default
  | .deleteSession, _, accepted, _ => { result := accepted }
  | .setSessionState, _, accepted, _ => { result := accepted }
  | .setSessionOptions, _, accepted, _ => { result := accepted }
  | .setSessionLocation, _, accepted, _ => { result := accepted }
  | .editNode, _, accepted, _ => { result := accepted }
  | .deleteNode, _, accepted, _ => { result := accepted }
  | .addLink, _, accepted, _ => { result := accepted }
  | .editLink, _, accepted, _ => { result := accepted }
  | .addHook, _, accepted, _ => { result := accepted }
  | .setMobilityConfig, _, accepted, _ => { result := accepted }
  | .mobilityAction, _, accepted, _ => { result := accepted }
  | .setWlanConfig, _, accepted, _ => { result := accepted }
  | .setEmaneConfig, _, accepted, _ => { result := accepted }
  | .setEmaneModelConfig, _, accepted, _ => { result := accepted }
  | .setServiceDefaults, _, accepted, _ => { result := accepted }
  | .setNodeService, _, accepted, _ => { result := accepted }
  | .setNodeServiceFile, _, accepted, _ => { result := accepted }
  | .serviceAction, _, accepted, _ => { result := accepted }

/-- Gives the plain answer. Adding a node takes a fresh id, whether the node needs one or not. -/
def answerPlainly (r : Recording) (c : Call) (accepted : Bool) : c.method.Response × Recording :=
  let freshId := r.lastNodeId + 1
  (plainResponse c.method c.request accepted freshId,
    if c.method = .addNode then { r with lastNodeId := freshId } else r)

/-- Keeps a call and counts it. -/
def record (r : Recording) (c : Call) : Recording :=
  { r with
    calls := r.calls ++ [c]
    counts := fun m => if m = c.method then r.counts m + 1 else r.counts m }

/-- Why the bytes given for a method are no answer. -/
def undecodable : String := "failed to decode Protobuf message"

/-- What is said of a call that was scripted to go wrong. -/
def scriptedMessage (m : Method) (nth : Nat) (what : String) : String :=
  m.name ++ " call #" ++ Number.writeNatural nth ++ " " ++ what

def reply : Daemon Recording := fun c r =>
  let r := r.record c
  let nth := r.counts c.method
  match r.outcomes c.method nth with
  | some .fault =>
    (.error (.status ⟨.unavailable, scriptedMessage c.method nth "failed", none⟩), r)
  | some .reject =>
    if c.method.acknowledges then
      let (answer, r) := r.answerPlainly c false
      (.ok answer, r)
    else
      (.error (.status ⟨.failedPrecondition, scriptedMessage c.method nth "rejected", none⟩), r)
  | none =>
    match r.canned c.method with
    | some bytes =>
      match Message.decode? bytes with
      | some answer => (.ok answer, r)
      | none => (.error (.malformedResponse c.method.name undecodable), r)
    | none =>
      let (answer, r) := r.answerPlainly c true
      (.ok answer, r)

end Recording

end EmuControl
