import EmuControl.Client.Orchestration
import EmuControl.Topology.Basic
import EmuControl.Workflow.Error

/-!
# Workflows on sessions

What the commands do with a session. A refusal of the daemon is an error here.
-/
namespace EmuControl.Workflow

open EmuControl.Number

/-- An operation of a client as part of a workflow. -/
def ofClient {α : Type} (op : ClientM α) : WorkflowM α :=
  ExceptT.mk do
    match ← op.run with
    | .ok a => return .ok a
    | .error e => return .error (.client e)

/-- An operation on a session as part of a workflow, and the context after it. -/
def onContext {α : Type} (ctx : SessionContext) (op : SessionM α) :
    WorkflowM (α × SessionContext) :=
  ExceptT.mk do
    match ← op.run.run ctx with
    | (.ok a, ctx) => return .ok (a, ctx)
    | (.error e, _) => return .error (.client e)

/-- The context of a session that exists. -/
def attach (sessionId : Int32) : WorkflowM SessionContext := do
  let session ← ofClient (Client.getSession sessionId)
  return { id := session.id, state := session.state }

/-- Builds a topology and has it instantiated, in a session that exists or in a new one. -/
def start (sessionId : Option Int32) (t : Topology) : WorkflowM SessionContext := do
  let ctx ← match sessionId with
    | some id => attach id
    | none => ofClient Client.createSession
  let (started, ctx) ← onContext ctx (Client.start t.nodes t.links t.hooks)
  if started then
    ExceptT.lift
      (Program.log .info .workflow ("Session " ++ writeInt32 ctx.id ++ " instantiated"))
    return ctx
  else
    throw (.rejected ("session " ++ writeInt32 ctx.id ++ " stopped in state " ++ ctx.state.name))

def stop (sessionId : Int32) : WorkflowM SessionContext := do
  let ctx ← attach sessionId
  let (stopped, ctx) ← onContext ctx Client.stop
  if stopped then return ctx
  else throw (.rejected ("shutdown of session " ++ writeInt32 sessionId))

def setState (sessionId : Int32) (state : SessionState) : WorkflowM SessionContext := do
  let ctx ← attach sessionId
  let (accepted, ctx) ← onContext ctx (Client.setState state)
  if accepted then return ctx
  else throw (.rejected ("state " ++ state.name ++ " for session " ++ writeInt32 sessionId))

def delete (sessionId : Int32) : WorkflowM Unit := do
  let deleted ← ofClient (Client.deleteSession sessionId)
  if deleted then return ()
  else throw (.rejected ("deletion of session " ++ writeInt32 sessionId))

/-- Writes a session to a file and gives the number of bytes. -/
def saveXml (sessionId : Int32) (path : String) : WorkflowM Nat := do
  let ctx ← attach sessionId
  let data ← ofClient (Client.saveXml ctx)
  writeFile path data
  return data.length

/-- Makes a session of a file and gives its id. -/
def openXml (path : String) : WorkflowM Int32 := do
  let data ← readFile path
  match ← ofClient (Client.openXml data) with
  | some id => return id
  | none => throw (.rejected ("XML file " ++ path))

end EmuControl.Workflow
