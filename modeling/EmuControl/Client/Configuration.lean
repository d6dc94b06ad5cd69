import EmuControl.Client.Topology

/-!
# Operations on the configuration of nodes

Options of wireless networks and of mobility are read and written as records, those of radio models
as they are.
-/
namespace EmuControl.Client

/-- The record that groups of options on the wire hold. -/
def recordOfGroups {α : Type} [OptionRecord α] (response : Wire.OptionGroups) : Mapped α :=
  OptionRecord.ofGroups (response.groups.map ConfigGroup.ofWire)

def getWlanConfig (nodeId : Int32) (ctx : SessionContext) : ClientM WlanConfig := do
  let response ← request .getWlanConfig { sessionId := ctx.id, nodeId }
  mapped (recordOfGroups response)

def setWlanConfig (nodeId : Int32) (config : WlanConfig) (ctx : SessionContext) : ClientM Bool := do
  let response ← request .setWlanConfig
    { sessionId := ctx.id, nodeId, config := OptionRecord.toMap config }
  return response.result

/-- Reads the options of a node, which must have an id. -/
def getNodeWlanConfig (node : Node) (ctx : SessionContext) : ClientM WlanConfig := do
  let id ← nodeId node "get_wlan_config"
  getWlanConfig id ctx

/-- Writes the options of a node, which must have an id. -/
def setNodeWlanConfig (node : Node) (config : WlanConfig) (ctx : SessionContext) :
    ClientM Bool := do
  let id ← nodeId node "set_wlan_config"
  setWlanConfig id config ctx

def getMobilityConfig (nodeId : Int32) (ctx : SessionContext) : ClientM MobilityConfig := do
  let response ← request .getMobilityConfig { sessionId := ctx.id, nodeId }
  mapped (recordOfGroups response)

/-- Reads the mobility options of all nodes that have some. Nodes are taken in ascending order of
their ids, and the first bad one is the error. -/
def getMobilityConfigs (ctx : SessionContext) : ClientM (SortedMap Int32 MobilityConfig) := do
  let response ← request .getMobilityConfigs { sessionId := ctx.id }
  mapped (response.configs.entries.foldlM
    (fun configs (id, groups) => do
      let config ← recordOfGroups groups
      return configs.insert id config)
    SortedMap.empty)

def setMobilityConfig (nodeId : Int32) (config : MobilityConfig) (ctx : SessionContext) :
    ClientM Bool := do
  let response ← request .setMobilityConfig
    { sessionId := ctx.id, nodeId, config := OptionRecord.toMap config }
  return response.result

def mobilityAction (nodeId : Int32) (action : MobilityAction) (ctx : SessionContext) :
    ClientM Bool := do
  let response ← request .mobilityAction
    { sessionId := ctx.id, nodeId, action := action.number }
  return response.result

def getEmaneConfig (ctx : SessionContext) : ClientM (List ConfigGroup) := do
  let response ← request .getEmaneConfig { sessionId := ctx.id }
  return response.groups.map ConfigGroup.ofWire

def setEmaneConfig (options : List ConfigOption) (ctx : SessionContext) : ClientM Bool := do
  let config ← mapped (OptionSchema.emane.encodeOptions options)
  let response ← request .setEmaneConfig { sessionId := ctx.id, config }
  return response.result

def getEmaneModels (ctx : SessionContext) : ClientM (List String) := do
  let response ← request .getEmaneModels { sessionId := ctx.id }
  return response.models

def getEmaneModelConfig (nodeId : Int32) (model : String) (ctx : SessionContext) :
    ClientM (List ConfigGroup) := do
  let response ← request .getEmaneModelConfig { sessionId := ctx.id, nodeId, model }
  return response.groups.map ConfigGroup.ofWire

def setEmaneModelConfig (nodeId : Int32) (model : String) (options : List ConfigOption)
    (ctx : SessionContext) : ClientM Bool := do
  let config ← mapped (OptionSchema.emaneModel.encodeOptions options)
  let response ← request .setEmaneModelConfig { sessionId := ctx.id, nodeId, model, config }
  return response.result

end EmuControl.Client
