import EmuControl.Client.Configuration
import EmuControl.Client.Service
import EmuControl.Client.Topology
import EmuControl.CommandLine.Grammar
import EmuControl.Json.Writer
import EmuControl.Network.Endpoint
import EmuControl.ServiceUpdate.Definition
import EmuControl.Table.View
import EmuControl.Topology.File
import EmuControl.Workflow.Session

/-!
# Commands

What each command does. A command that talks to the daemon is a fixed sequence of steps and ends
with the first one that fails; what it has to say to the user comes after its last step.
-/
namespace EmuControl.CommandLine

open EmuControl.Number

inductive Command where
  | listSessions
  | createSession
  | deleteSession (session : Int32)
  | showSession (session : Int32) (asJson : Bool)
  | startSession (topology : String) (session : Option Int32)
  | stopSession (session : Int32)
  | setState (session : Int32) (state : SessionState)
  | listHooks (session : Int32)
  | showOptions (session : Int32)
  | listServices
  | showLocation (session : Int32)
  | saveSession (session : Int32) (file : String)
  | openSession (file : String)
  | updateService (file : String)
  | completions (shell : Shell)
  deriving DecidableEq, Repr

/-- Writes a line to the output. -/
def say (line : String) : WorkflowM Unit :=
  ExceptT.lift (Program.perform (.print (line ++ "\n")))

/-- Tells of a success. -/
def sayDone (message : String) : WorkflowM Unit :=
  say ("✓ " ++ message)

/-- Warns the user. -/
def warn (message : String) : Program Unit :=
  Program.perform (.complain ("⚠ " ++ message ++ "\n"))

/-- The heading of a section, with a line behind it. -/
def heading (title : String) : String :=
  "\n" ++ title ++ " " ++
    String.ofList (List.replicate (50 - min title.utf8ByteSize 40) '─')

/-- The nodes and links of a session. -/
def saySession (s : Session) : WorkflowM Unit := do
  say (heading ("Session " ++ writeInt32 s.id ++ " (" ++ s.state.name ++ ")"))
  say (Table.ofNodes s.nodes).text
  if !s.links.isEmpty then say (Table.ofLinks s.links).text

/-- Builds a topology file into a session. -/
def startTopology (path : String) (sessionId : Option Int32) : WorkflowM Unit := do
  let topology ← Topology.load path
  if topology.isEmpty then
    ExceptT.lift (warn "Topology is empty; the session will start without nodes")
  let ctx ← Workflow.start sessionId topology
  sayDone ("Session " ++ writeInt32 ctx.id ++ " started with " ++
    writeNatural topology.nodes.length ++ " nodes and " ++ writeNatural topology.links.length ++
    " links")

/-- A script that lets a shell complete the names of commands. -/
def completionScript (shell : Shell) : String :=
  let names := " ".intercalate (commands.map (·.name))
  match shell with
  | .bash => "complete -W \"" ++ names ++ "\" netemu\n"
  | .elvish => "set edit:completion:arg-completer[netemu] = \x7b|@words| put " ++ names ++ " \x7d\n"
  | .fish => "complete -c netemu -f -a \"" ++ names ++ "\"\n"
  | .powershell =>
    "Register-ArgumentCompleter -Native -CommandName netemu -ScriptBlock \x7b -split \"" ++ names ++
      "\" \x7d\n"
  | .zsh => "compdef '_values command " ++ names ++ "' netemu\n"

/-- Whether a command talks to the daemon. -/
def Command.needsDaemon : Command → Bool
  | updateService _ => false
  | completions _ => false
  | _ => true

open Workflow in
/-- The steps of a command, the connection being prepared. -/
def Command.steps : Command → WorkflowM Unit
  | listSessions => do
    let sessions ← ofClient Client.listSessions
    if sessions.isEmpty then say "ℹ No sessions" else say (Table.ofSessions sessions).text
  | createSession => do
    let ctx ← ofClient Client.createSession
    sayDone ("Created session " ++ writeInt32 ctx.id ++ " (" ++ ctx.state.name ++ ")")
  | deleteSession session => do
    delete session
    sayDone ("Deleted session " ++ writeInt32 session)
  | showSession session asJson => do
    let snapshot ← ofClient (Client.getSession session)
    if asJson then say (Json.pretty (write snapshot)) else saySession snapshot
  | startSession topology session => startTopology topology session
  | stopSession session => do
    discard (stop session)
    sayDone ("Session " ++ writeInt32 session ++ " shut down")
  | setState session state => do
    let ctx ← Workflow.setState session state
    sayDone ("Session " ++ writeInt32 ctx.id ++ " is now " ++ ctx.state.name)
  | listHooks session => do
    let ctx ← attach session
    let hooks ← ofClient (Client.getHooks ctx)
    say (Table.ofHooks hooks).text
  | showOptions session => do
    let ctx ← attach session
    let groups ← ofClient (Client.getSessionOptions ctx)
    say (Table.ofConfigGroups groups).text
  | listServices => do
    let groups ← ofClient Client.getServices
    say (Table.ofServices groups).text
  | showLocation session => do
    let ctx ← attach session
    let location ← ofClient (Client.getLocation ctx)
    say (Table.ofLocation location).text
  | saveSession session file => do
    let size ← saveXml session file
    sayDone ("Saved session " ++ writeInt32 session ++ " to " ++ file ++ " (" ++
      writeNatural size ++ " bytes)")
  | openSession file => do
    let id ← openXml file
    sayDone ("Opened " ++ file ++ " as session " ++ writeInt32 id)
  | updateService file => do
    let target ← ServiceUpdate.updateFile file
    sayDone ("Updated service written to " ++ target)
  | completions shell => ExceptT.lift (Program.perform (.print (completionScript shell)))

/-- A command on the daemon at an endpoint. -/
def Command.program (c : Command) (e : Network.Endpoint) : WorkflowM Unit := do
  if c.needsDaemon then Workflow.ofClient e.connect
  c.steps

/-- What stands before the text of an error that ends the command. -/
def Command.errorContext : Command → Option String
  | updateService file => some ("Failed to update " ++ file)
  | _ => none

/-- What the user is told of an error. -/
def errorReport (c : Command) (e : WorkflowError) : String :=
  let text := ": ".intercalate (c.errorContext.toList ++ [e.chain])
  let hint :=
    if e.isConnectionError then
      "  → Is the CORE daemon running? Check --address and --port.\n"
    else ""
  "\n✗ Error: " ++ text ++ "\n" ++ hint ++ "\n"

/-- Runs a command, tells of its error, and gives the exit status. -/
def Command.execute (c : Command) (e : Network.Endpoint) : Program Nat := do
  match ← (c.program e).run with
  | .ok () => return 0
  | .error error =>
    Program.perform (.complain (errorReport c error))
    return error.exitCode

end EmuControl.CommandLine
