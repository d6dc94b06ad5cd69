import EmuControl.Client.Basic
import EmuControl.Mapping.Service

/-!
# Operations on services
-/
namespace EmuControl.Client

open EmuControl.Number

/-- The services that the daemon offers, by group. -/
def getServices : ClientM ServiceGroups := do
  let response ← request .getServices {}
  return ServiceGroups.ofWire response.services

def getServiceDefaults (ctx : SessionContext) : ClientM ServiceDefaults := do
  let response ← request .getServiceDefaults { sessionId := ctx.id }
  return ServiceDefaults.ofWire response.defaults

def setServiceDefaults (defaults : ServiceDefaults) (ctx : SessionContext) : ClientM Bool := do
  let response ← request .setServiceDefaults
    { sessionId := ctx.id, defaults := ServiceDefaults.toWire defaults }
  return response.result

def getService (nodeId : Int32) (service : String) (ctx : SessionContext) :
    ClientM ServiceData := do
  let response ← request .getNodeService { sessionId := ctx.id, nodeId, service }
  match response.service with
  | none => throw (.ofApi (.missingField "GetNodeService" "service"))
  | some data => mapped (ServiceData.ofWire data)

/-- Replaces the commands that start, validate and shut down a service on a node. -/
def setService (nodeId : Int32) (service : String) (data : ServiceData) (ctx : SessionContext) :
    ClientM Bool := do
  let response ← request .setNodeService
    { sessionId := ctx.id
      nodeId
      service
      startup := data.startup
      validate := data.validate
      shutdown := data.shutdown }
  return response.result

def getServiceFile (nodeId : Int32) (service file : String) (ctx : SessionContext) :
    ClientM ServiceFile := do
  let response ← request .getNodeServiceFile { sessionId := ctx.id, nodeId, service, file }
  match Bytes.toText? response.data with
  | none => throw (.mapping (.invalidText ("service file " ++ file)))
  | some data => return { name := file, data }

def setServiceFile (nodeId : Int32) (service : String) (file : ServiceFile)
    (ctx : SessionContext) : ClientM Bool := do
  let response ← request .setNodeServiceFile
    { sessionId := ctx.id, nodeId, service, file := file.name, data := Bytes.ofText file.data }
  return response.result

/-- How a log shows an action. -/
def actionText : ServiceAction → String
  | .start => "Start"
  | .stop => "Stop"
  | .restart => "Restart"
  | .validate => "Validate"

def serviceAction (nodeId : Int32) (service : String) (action : ServiceAction)
    (ctx : SessionContext) : ClientM Bool := do
  let response ← request .serviceAction
    { sessionId := ctx.id, nodeId, service, action := action.number }
  note .debug (sessionText ctx ++ actionText action ++ " " ++ service ++ " on node " ++
    writeInt32 nodeId ++ " accepted: " ++ truthText response.result)
  return response.result

def startService (nodeId : Int32) (service : String) : SessionContext → ClientM Bool :=
  serviceAction nodeId service .start

def stopService (nodeId : Int32) (service : String) : SessionContext → ClientM Bool :=
  serviceAction nodeId service .stop

def restartService (nodeId : Int32) (service : String) : SessionContext → ClientM Bool :=
  serviceAction nodeId service .restart

def validateService (nodeId : Int32) (service : String) : SessionContext → ClientM Bool :=
  serviceAction nodeId service .validate

end EmuControl.Client
