import EmuControl.Client.Configuration

/-!
# Starting and stopping a session

The daemon takes changes to the network only in the configuration state, and freezes the network
when it instantiates it. A start therefore goes, in this order, to the definition state and to the
configuration state, adds the hooks, the nodes and the links, each in the order given, and goes to
the instantiation state. The options of a wireless network are read and written back before its node
is added: this pins the values that the daemon would fill in otherwise.

The first step that fails ends the start. A refusal is the answer `false`, and any other failure is
an error. Nothing is undone.
-/
namespace EmuControl.Client

open EmuControl.Number

/-- Logs an event of a start or stop. -/
def report (level : Log.Level) (message : SessionContext → String) : SessionM Unit :=
  onSession fun ctx => ExceptT.lift (Program.log level .orchestrator (message ctx))

/-- Takes steps until one is refused. -/
def allAccepted {α : Type} (step : α → SessionM Bool) : List α → SessionM Bool
  | [] => return true
  | a :: rest => do
    if ← step a then allAccepted step rest else return false

def addHook (hook : Hook) : SessionM Bool := do
  let accepted ← onSession (createHook hook)
  if accepted then return true
  report .warn fun ctx => sessionText ctx ++ "hook " ++ hook.file ++ " rejected, aborting start"
  return false

/-- Reads the options of a wireless network and writes them back. -/
def pinWlanConfig (node : Node) : SessionM Bool := do
  let config ← onSession (getNodeWlanConfig node)
  let accepted ← onSession (setNodeWlanConfig node config)
  if accepted then return true
  report .warn fun ctx => sessionText ctx ++ "WLAN configuration of node " ++ optionText node.id ++
    " rejected, aborting start"
  return false

def addNode (node : Node) : SessionM Bool := do
  let pinned ← if node.isWlan then pinWlanConfig node else pure true
  if pinned then
    let id ← onSession (createNode node)
    report .debug fun ctx => sessionText ctx ++ "node " ++ writeInt32 id ++ " in place"
    return true
  return false

def addLink (link : Link) : SessionM Bool := do
  let accepted ← onSession (createLink link)
  if accepted then return true
  report .warn fun ctx => sessionText ctx ++ "link " ++ optionText link.nodeOne ++ " - " ++
    optionText link.nodeTwo ++ " rejected, aborting start"
  return false

/-- Builds a network and has it instantiated. Whether links join existing nodes is not checked. -/
def start (nodes : List Node) (links : List Link) (hooks : List Hook) : SessionM Bool := do
  report .info fun ctx => "Starting session " ++ writeInt32 ctx.id ++ ": " ++
    writeNatural nodes.length ++ " nodes, " ++ writeNatural links.length ++ " links, " ++
    writeNatural hooks.length ++ " hooks"
  if !(← allAccepted setState [.definition, .configuration]) then return false
  if !(← allAccepted addHook hooks) then return false
  if !(← allAccepted addNode nodes) then return false
  if !(← allAccepted addLink links) then return false
  setState .instantiation

/-- Moves the session to the shutdown state. -/
def stop : SessionM Bool := do
  report .info fun ctx => "Stopping session " ++ writeInt32 ctx.id
  setState .shutdown

end EmuControl.Client
