import EmuControl.Wire.Message.Configuration
import EmuControl.Wire.Message.Service
import EmuControl.Wire.Message.Session

/-!
# Calls of the daemon

One method per capability of the daemon, each with the type of its request and of its response. A
response that carries an acknowledgment says whether the daemon did what it was asked for; a call
without one is answered or fails.
-/
namespace EmuControl.Wire

/-- The two messages of a call, and the acknowledgment in the second one if there is one. -/
structure Exchange where
  Request : Type
  Response : Type
  [request : Message Request]
  [response : Message Response]
  verdict : Option (Response → Bool)

namespace Exchange

/-- A call whose response carries data. -/
abbrev answers (Request Response : Type) [Message Request] [Message Response] : Exchange :=
  ⟨Request, Response, none⟩

/-- A call whose response is only an acknowledgment. -/
abbrev acknowledged (Request : Type) [Message Request] : Exchange :=
  ⟨Request, Acknowledgment, some fun r => r.result⟩

end Exchange

inductive Method where
  | createSession
  | deleteSession
  | getSessions
  | getSession
  | setSessionState
  | getSessionOptions
  | setSessionOptions
  | getSessionLocation
  | setSessionLocation
  | saveXml
  | openXml
  | addNode
  | editNode
  | deleteNode
  | addLink
  | editLink
  | getHooks
  | addHook
  | getMobilityConfigs
  | getMobilityConfig
  | setMobilityConfig
  | mobilityAction
  | getWlanConfig
  | setWlanConfig
  | getEmaneConfig
  | setEmaneConfig
  | getEmaneModels
  | getEmaneModelConfig
  | setEmaneModelConfig
  | getServices
  | getServiceDefaults
  | setServiceDefaults
  | getNodeService
  | setNodeService
  | getNodeServiceFile
  | setNodeServiceFile
  | serviceAction
  deriving DecidableEq, Repr

namespace Method

/-- All methods, by capability. -/
def all : List Method :=
  [.createSession, .deleteSession, .getSessions, .getSession, .setSessionState,
   .getSessionOptions, .setSessionOptions, .getSessionLocation, .setSessionLocation, .saveXml,
   .openXml, .addNode, .editNode, .deleteNode, .addLink, .editLink, .getHooks, .addHook,
   .getMobilityConfigs, .getMobilityConfig, .setMobilityConfig, .mobilityAction, .getWlanConfig,
   .setWlanConfig, .getEmaneConfig, .setEmaneConfig, .getEmaneModels, .getEmaneModelConfig,
   .setEmaneModelConfig, .getServices, .getServiceDefaults, .setServiceDefaults, .getNodeService,
   .setNodeService, .getNodeServiceFile, .setNodeServiceFile, .serviceAction]

/-- The name of the method on the wire. -/
def name : Method → String
  | .createSession => "CreateSession"
  | .deleteSession => "DeleteSession"
  | .getSessions => "GetSessions"
  | .getSession => "GetSession"
  | .setSessionState => "SetSessionState"
  | .getSessionOptions => "GetSessionOptions"
  | .setSessionOptions => "SetSessionOptions"
  | .getSessionLocation => "GetSessionLocation"
  | .setSessionLocation => "SetSessionLocation"
  | .saveXml => "SaveXml"
  | .openXml => "OpenXml"
  | .addNode => "AddNode"
  | .editNode => "EditNode"
  | .deleteNode => "DeleteNode"
  | .addLink => "AddLink"
  | .editLink => "EditLink"
  | .getHooks => "GetHooks"
  | .addHook => "AddHook"
  | .getMobilityConfigs => "GetMobilityConfigs"
  | .getMobilityConfig => "GetMobilityConfig"
  | .setMobilityConfig => "SetMobilityConfig"
  | .mobilityAction => "MobilityAction"
  | .getWlanConfig => "GetWlanConfig"
  | .setWlanConfig => "SetWlanConfig"
  | .getEmaneConfig => "GetEmaneConfig"
  | .setEmaneConfig => "SetEmaneConfig"
  | .getEmaneModels => "GetEmaneModels"
  | .getEmaneModelConfig => "GetEmaneModelConfig"
  | .setEmaneModelConfig => "SetEmaneModelConfig"
  | .getServices => "GetServices"
  | .getServiceDefaults => "GetServiceDefaults"
  | .setServiceDefaults => "SetServiceDefaults"
  | .getNodeService => "GetNodeService"
  | .setNodeService => "SetNodeService"
  | .getNodeServiceFile => "GetNodeServiceFile"
  | .setNodeServiceFile => "SetNodeServiceFile"
  | .serviceAction => "ServiceAction"

/-- The messages of the method. -/
abbrev exchange : Method → Exchange
  | .createSession => .answers SessionCreation SessionCreated
  | .deleteSession => .acknowledged SessionScope
  | .getSessions => .answers Nothing SessionList
  | .getSession => .answers SessionScope SessionSnapshot
  | .setSessionState => .acknowledged StateChange
  | .getSessionOptions => .answers SessionScope OptionGroups
  | .setSessionOptions => .acknowledged SessionOptionChange
  | .getSessionLocation => .answers SessionScope Location
  | .setSessionLocation => .acknowledged LocationChange
  | .saveXml => .answers SessionScope Document
  | .openXml => ⟨Document, DocumentOpened, some fun r => r.result⟩
  | .addNode => .answers NodeAddition NodeAdded
  | .editNode => .acknowledged NodeMove
  | .deleteNode => .acknowledged NodeScope
  | .addLink => .acknowledged LinkAddition
  | .editLink => .acknowledged LinkEdit
  | .getHooks => .answers SessionScope HookList
  | .addHook => .acknowledged HookAddition
  | .getMobilityConfigs => .answers SessionScope MobilityOptions
  | .getMobilityConfig => .answers NodeScope OptionGroups
  | .setMobilityConfig => .acknowledged NodeOptionChange
  | .mobilityAction => .acknowledged MobilityCommand
  | .getWlanConfig => .answers NodeScope OptionGroups
  | .setWlanConfig => .acknowledged NodeOptionChange
  | .getEmaneConfig => .answers SessionScope OptionGroups
  | .setEmaneConfig => .acknowledged SessionOptionChange
  | .getEmaneModels => .answers SessionScope ModelList
  | .getEmaneModelConfig => .answers ModelScope OptionGroups
  | .setEmaneModelConfig => .acknowledged ModelOptionChange
  | .getServices => .answers Nothing ServiceList
  | .getServiceDefaults => .answers SessionScope ServiceDefaultsList
  | .setServiceDefaults => .acknowledged ServiceDefaultsChange
  | .getNodeService => .answers ServiceScope NodeService
  | .setNodeService => .acknowledged NodeServiceChange
  | .getNodeServiceFile => .answers ServiceFileScope Document
  | .setNodeServiceFile => .acknowledged ServiceFileChange
  | .serviceAction => .acknowledged ServiceCommand

abbrev Request (m : Method) : Type := m.exchange.Request

abbrev Response (m : Method) : Type := m.exchange.Response

instance (m : Method) : Message m.Request := m.exchange.request

instance (m : Method) : Message m.Response := m.exchange.response

/-- Whether responses carry an acknowledgment. The others carry data or nothing. -/
def acknowledges : Method → Bool
  | .createSession | .getSessions | .getSession | .getSessionOptions | .getSessionLocation
  | .saveXml | .addNode | .getHooks | .getMobilityConfigs | .getMobilityConfig | .getWlanConfig
  | .getEmaneConfig | .getEmaneModels | .getEmaneModelConfig | .getServices
  | .getServiceDefaults | .getNodeService | .getNodeServiceFile => false
  | _ => true

/-- The methods that acknowledge are those with an acknowledgment in the response. -/
theorem acknowledges_eq_isSome (m : Method) : m.acknowledges = m.exchange.verdict.isSome := by
  cases m <;> rfl

/-- A response is positive unless it carries an acknowledgment that says no. -/
def isPositive (m : Method) (r : m.Response) : Bool :=
  match m.exchange.verdict with
  | none => true
  | some verdict => verdict r

/-- The method of a name. -/
def ofName? (s : String) : Option Method :=
  all.find? fun m => m.name = s

/-- The service that all methods belong to. -/
def serviceName : String := "core.CoreApi"

/-- The path under which the daemon serves the method. -/
def path : Method → String
  | .createSession => "/core.CoreApi/CreateSession"
  | .deleteSession => "/core.CoreApi/DeleteSession"
  | .getSessions => "/core.CoreApi/GetSessions"
  | .getSession => "/core.CoreApi/GetSession"
  | .setSessionState => "/core.CoreApi/SetSessionState"
  | .getSessionOptions => "/core.CoreApi/GetSessionOptions"
  | .setSessionOptions => "/core.CoreApi/SetSessionOptions"
  | .getSessionLocation => "/core.CoreApi/GetSessionLocation"
  | .setSessionLocation => "/core.CoreApi/SetSessionLocation"
  | .saveXml => "/core.CoreApi/SaveXml"
  | .openXml => "/core.CoreApi/OpenXml"
  | .addNode => "/core.CoreApi/AddNode"
  | .editNode => "/core.CoreApi/EditNode"
  | .deleteNode => "/core.CoreApi/DeleteNode"
  | .addLink => "/core.CoreApi/AddLink"
  | .editLink => "/core.CoreApi/EditLink"
  | .getHooks => "/core.CoreApi/GetHooks"
  | .addHook => "/core.CoreApi/AddHook"
  | .getMobilityConfigs => "/core.CoreApi/GetMobilityConfigs"
  | .getMobilityConfig => "/core.CoreApi/GetMobilityConfig"
  | .setMobilityConfig => "/core.CoreApi/SetMobilityConfig"
  | .mobilityAction => "/core.CoreApi/MobilityAction"
  | .getWlanConfig => "/core.CoreApi/GetWlanConfig"
  | .setWlanConfig => "/core.CoreApi/SetWlanConfig"
  | .getEmaneConfig => "/core.CoreApi/GetEmaneConfig"
  | .setEmaneConfig => "/core.CoreApi/SetEmaneConfig"
  | .getEmaneModels => "/core.CoreApi/GetEmaneModels"
  | .getEmaneModelConfig => "/core.CoreApi/GetEmaneModelConfig"
  | .setEmaneModelConfig => "/core.CoreApi/SetEmaneModelConfig"
  | .getServices => "/core.CoreApi/GetServices"
  | .getServiceDefaults => "/core.CoreApi/GetServiceDefaults"
  | .setServiceDefaults => "/core.CoreApi/SetServiceDefaults"
  | .getNodeService => "/core.CoreApi/GetNodeService"
  | .setNodeService => "/core.CoreApi/SetNodeService"
  | .getNodeServiceFile => "/core.CoreApi/GetNodeServiceFile"
  | .setNodeServiceFile => "/core.CoreApi/SetNodeServiceFile"
  | .serviceAction => "/core.CoreApi/ServiceAction"

/-- A path names the service and the method. -/
theorem path_eq (m : Method) : m.path = "/" ++ serviceName ++ "/" ++ m.name := by
  cases m <;> decide +kernel

/-- The method of a path. -/
def ofPath? (s : String) : Option Method :=
  all.find? fun m => m.path = s

/-- The name in lower case, its words joined by underscores. -/
def procedureName (m : Method) : String :=
  match m.name.toList with
  | [] => ""
  | c :: rest =>
    String.ofList (c.toLower :: rest.flatMap fun c => if c.isUpper then ['_', c.toLower] else [c])

end Method

/-- A request together with the method it is for. -/
structure Call where
  method : Method
  request : method.Request

namespace Call

/-- The request as it travels. -/
def payload (c : Call) : Bytes :=
  Message.encode c.request

end Call

end EmuControl.Wire
