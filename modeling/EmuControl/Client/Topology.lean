import EmuControl.Client.Session

/-!
# Operations on nodes, links and hooks

A mapping that fails ends an operation before its call is made, and so does a node without the id
that the call needs.
-/
namespace EmuControl.Client

open EmuControl.Number

/-- The id of a node for an operation that needs it. -/
def nodeId (node : Node) (operation : String) : ClientM Int32 :=
  match node.id with
  | some id => pure id
  | none => throw (.missingNodeId operation)

/-- Creates a node and gives the id that it has now. There is no refusal: the daemon answers with an
id, or the call fails. -/
def createNode (node : Node) (ctx : SessionContext) : ClientM Int32 := do
  let response ← request .addNode { sessionId := ctx.id, node := some node.toWire }
  note .debug (sessionText ctx ++ "created " ++ node.kind.name ++ " node " ++
    writeInt32 response.nodeId)
  return response.nodeId

/-- Moves a node on the canvas. -/
def editNode (node : Node) (ctx : SessionContext) : ClientM Bool := do
  let nodeId ← nodeId node "edit_node"
  let response ← request .editNode
    { sessionId := ctx.id, nodeId, position := node.position.map Position.toWire }
  return response.result

def deleteNode (nodeId : Int32) (ctx : SessionContext) : ClientM Bool := do
  let response ← request .deleteNode { sessionId := ctx.id, nodeId }
  return response.result

def createLink (link : Link) (ctx : SessionContext) : ClientM Bool := do
  let wire ← mapped link.toWire
  let response ← request .addLink { sessionId := ctx.id, link := some wire }
  note .debug (sessionText ctx ++ "link " ++ optionText link.nodeOne ++ " - " ++
    optionText link.nodeTwo ++ " accepted: " ++ truthText response.result)
  return response.result

/-- Changes the options of a link. Its interfaces are given by their ids only. -/
def editLink (link : Link) (ctx : SessionContext) : ClientM Bool := do
  let response ← request .editLink
    { sessionId := ctx.id
      nodeOne := link.nodeOne
      nodeTwo := link.nodeTwo
      interfaceOne := link.interfaceOne.bind (·.id)
      interfaceTwo := link.interfaceTwo.bind (·.id)
      options := link.options.map LinkOptions.toWire }
  return response.result

def createHook (hook : Hook) (ctx : SessionContext) : ClientM Bool := do
  let response ← request .addHook { sessionId := ctx.id, hook := some hook.toWire }
  note .debug (sessionText ctx ++ "hook " ++ hook.file ++ " for " ++ hook.state.name ++
    " accepted: " ++ truthText response.result)
  return response.result

def getHooks (ctx : SessionContext) : ClientM (List Hook) := do
  let response ← request .getHooks { sessionId := ctx.id }
  mapped (response.hooks.mapM Hook.ofWire)

end EmuControl.Client
