import EmuControl.CommandLine.Arguments
import EmuControl.CommandLine.Command
import EmuControl.Settings

/-!
# Invocations

A command with the settings that the command line gives for it. An option that is given both before
and after the name of the command counts as given after it.
-/
namespace EmuControl.CommandLine

open EmuControl.Number

structure Invocation where
  config : Option String := none
  address : Option String := none
  port : Option UInt16 := none
  logLevel : Option Log.Level := none
  logFile : Option String := none
  verbose : Bool := false
  command : Command
  deriving DecidableEq, Repr

namespace Given

/-- The value of an option that every command has. -/
def shared? (g : Given) (long : String) : Option String :=
  (g.after.value? long).or (g.before.value? long)

/-- The value at a place after the command. -/
def positional? (g : Given) (i : Nat) : Option String :=
  g.after.positionals[i]?

/-- The session at the first place. -/
def session? (g : Given) : Option Int32 :=
  (g.positional? 0).bind readInt32?

/-- The command that was given. -/
def command? (g : Given) : Option Command :=
  match g.command.name with
  | "sessions" => some .listSessions
  | "create" => some .createSession
  | "delete" => g.session?.map .deleteSession
  | "show" => g.session?.map (.showSession · (g.after.has "json"))
  | "start" =>
    (g.after.value? "topology").map
      (.startSession · ((g.after.value? "session").bind readInt32?))
  | "stop" => g.session?.map .stopSession
  | "state" => do
    let session ← g.session?
    let state ← (g.positional? 1).bind SessionState.parse?
    some (.setState session state)
  | "hooks" => g.session?.map .listHooks
  | "options" => g.session?.map .showOptions
  | "services" => some .listServices
  | "location" => g.session?.map .showLocation
  | "save" => do
    let session ← g.session?
    let file ← g.positional? 1
    some (.saveSession session file)
  | "open" => (g.positional? 0).map .openSession
  | "service-update" => (g.after.value? "file").map .updateService
  | "completions" => ((g.positional? 0).bind Shell.ofName?).map .completions
  | _ => none

/-- Everything that was given. -/
def invocation? (g : Given) : Option Invocation :=
  g.command?.map fun command =>
    { config := g.shared? "config"
      address := g.shared? "address"
      port := (g.shared? "port").bind readUInt16?
      logLevel := (g.shared? "log-level").bind Log.Level.ofName?
      logFile := g.shared? "log"
      verbose := (g.shared? "verbose").isSome
      command }

end Given

namespace Invocation

/-- Reads a command line. -/
def ofArguments (args : List String) : Except Stop Invocation := do
  let given ← readLine args
  match given.invocation? with
  | some i => .ok i
  | none => .error .usage

/-- The settings of a file with what the command line says instead. -/
def apply (i : Invocation) (s : Settings) : Settings :=
  { s.override i.address i.port i.verbose with
    logLevel := i.logLevel.getD s.logLevel
    logFile := i.logFile.or s.logFile }

end Invocation

end EmuControl.CommandLine
