import EmuControl.Client.Basic
import EmuControl.Mapping.Configuration
import EmuControl.Mapping.Session
import EmuControl.Options.Record

/-!
# Operations on sessions

Each operation makes exactly one call. Only `setState` changes a context, and only when the daemon
acknowledges the change.
-/
namespace EmuControl.Client

open EmuControl.Number

/-- Creates a session and gives its context. -/
def createSession : ClientM SessionContext := do
  let response ← request .createSession { sessionId := none }
  let state ← mapped (SessionState.ofNumber response.state)
  note .info ("Created session " ++ writeInt32 response.sessionId ++ " in " ++ state.name)
  return { id := response.sessionId, state }

def deleteSession (sessionId : Int32) : ClientM Bool := do
  let response ← request .deleteSession { sessionId }
  if response.result then
    note .info ("Deleted session " ++ writeInt32 sessionId)
  else
    note .warn ("Daemon refused to delete session " ++ writeInt32 sessionId)
  return response.result

def listSessions : ClientM (List SessionSummary) := do
  let response ← request .getSessions {}
  note .debug ("Daemon reports " ++ writeNatural response.sessions.length ++ " sessions")
  mapped (response.sessions.mapM SessionSummary.ofWire)

/-- The nodes and links of a session. -/
def getSession (sessionId : Int32) : ClientM Session := do
  let response ← request .getSession { sessionId }
  match response.session with
  | none => throw (.ofApi (.missingField "GetSession" "session"))
  | some session =>
    let session ← mapped (Session.ofWire session)
    note .debug ("Session " ++ writeInt32 session.id ++ ": " ++ writeNatural session.nodes.length ++
      " nodes, " ++ writeNatural session.links.length ++ " links")
    return session

/-- Moves the session to a state. The context follows only when the daemon acknowledges. -/
def setState (state : SessionState) : SessionM Bool :=
  ExceptT.mk fun ctx => do
    match ← (request .setSessionState { sessionId := ctx.id, state := state.number }).run with
    | .error e => return (.error e, ctx)
    | .ok response =>
      if response.result then
        Program.log .info .client (sessionText ctx ++ ctx.state.name ++ " -> " ++ state.name)
        return (.ok true, { ctx with state })
      else
        Program.log .warn .client
          (sessionText ctx ++ "daemon refused transition to " ++ state.name)
        return (.ok false, ctx)

def getSessionOptions (ctx : SessionContext) : ClientM (List ConfigGroup) := do
  let response ← request .getSessionOptions { sessionId := ctx.id }
  return response.groups.map ConfigGroup.ofWire

/-- The options of a session by name. -/
def getSessionOptionMap (ctx : SessionContext) : ClientM OptionMap := do
  let groups ← getSessionOptions ctx
  let values ← mapped (OptionSchema.session.extract (flattenGroups groups))
  return OptionSchema.session.render values

def setSessionOptions (options : List ConfigOption) (ctx : SessionContext) : ClientM Bool := do
  let config ← mapped (OptionSchema.session.encodeOptions options)
  let response ← request .setSessionOptions { sessionId := ctx.id, config }
  return response.result

def getLocation (ctx : SessionContext) : ClientM LocationConfig := do
  let response ← request .getSessionLocation { sessionId := ctx.id }
  return LocationConfig.ofWire response.position response.scale

def setLocation (config : LocationConfig) (ctx : SessionContext) : ClientM Bool := do
  let (position, scale) := config.toWire
  let response ← request .setSessionLocation
    { sessionId := ctx.id, position := some position, scale }
  return response.result

/-- The session as a document, untouched. -/
def saveXml (ctx : SessionContext) : ClientM Bytes := do
  let response ← request .saveXml { sessionId := ctx.id }
  note .debug (sessionText ctx ++ "saved " ++ writeNatural response.data.length ++ " bytes of XML")
  return response.data

/-- Makes a session of a document, and gives its id unless the daemon refuses the document. -/
def openXml (data : Bytes) : ClientM (Option Int32) := do
  let response ← request .openXml { data }
  if response.result then
    note .info ("Opened XML as session " ++ writeInt32 response.sessionId)
    return some response.sessionId
  else
    note .warn "Daemon rejected session XML"
    return none

end EmuControl.Client
