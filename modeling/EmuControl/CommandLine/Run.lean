import EmuControl.CommandLine.Invocation

/-!
# Running the command line

First the settings are made up and the log is opened, then the command runs. A configuration file
that cannot be loaded is only warned of, and so is a log that cannot be opened.

Every call to the daemon is announced in the log before it is made.
-/
namespace EmuControl

open EmuControl.Number Wire

/-- The events that announce a call. -/
def announcements (c : Call) : List Log.Event :=
  let calling : Log.Event :=
    { level := .debug
      component := .remote
      message := "Calling CORE daemon"
      procedure := some c.method.procedureName }
  match c with
  | ⟨.openXml, r⟩ =>
    [{ level := .debug
       component := .remote
       message := "Uploading " ++ writeNatural r.data.length ++ " bytes of session XML" },
     calling]
  | _ => [calling]

namespace Program

variable {α : Type}

/-- Logs events before a program. -/
def logAll (events : List Log.Event) (p : Program α) : Program α :=
  events.foldr (fun e p => act (.log e) fun _ => p) p

/-- The program with its calls announced. -/
def announceCalls : Program α → Program α
  | done a => done a
  | act (.call c) next => logAll (announcements c) (act (.call c) fun r => (next r).announceCalls)
  | act a next => act a fun r => (next r).announceCalls

/-- The program with only the events that the log keeps. -/
def filterLog (keep : Log.Event → Bool) : Program α → Program α
  | done a => done a
  | act (.log e) next =>
    if keep e then act (.log e) fun r => (next r).filterLog keep else (next ()).filterLog keep
  | act a next => act a fun r => (next r).filterLog keep

end Program

namespace CommandLine

/-- The settings for an invocation. -/
def loadSettings (i : Invocation) : Program Settings := do
  match i.config with
  | none => return i.apply {}
  | some path =>
    match ← Settings.load path with
    | .ok s => return i.apply s
    | .error e =>
      warn ("Failed to load config file: " ++ e.message)
      return i.apply {}

/-- Where events go. -/
inductive Sink where
  | terminal
  | file (path : String)
  | nowhere
  deriving DecidableEq, Repr

/-- Opens the log. -/
def openLog (s : Settings) : Program Sink := do
  match s.logFile with
  | none => return .terminal
  | some path =>
    match ← Program.perform (.writeFile path []) with
    | .ok () => return .file path
    | .error e =>
      let error := WorkflowError.configuration ("Failed to create log file: " ++ e.message)
      Program.perform (.complain
        ("Warning: Failed to initialize logging: " ++ error.message ++ "\n"))
      return .nowhere

/-- Whether an event is logged. -/
def isLogged (s : Settings) (sink : Sink) (e : Log.Event) : Bool :=
  sink ≠ .nowhere && e.passes s.effectiveLevel

/-- What has to be known before a command can run. -/
structure Prepared where
  settings : Settings
  sink : Sink

/-- Makes up the settings and opens the log. -/
def prepare (i : Invocation) : Program Prepared := do
  let settings ← loadSettings i
  let sink ← openLog settings
  return { settings, sink }

/-- Runs the command and gives the exit status. -/
def runPrepared (i : Invocation) (p : Prepared) : Program Nat :=
  ((i.command.execute p.settings.endpoint).announceCalls).filterLog (isLogged p.settings p.sink)

/-- Runs an invocation and gives the exit status. -/
def run (i : Invocation) : Program Nat := do
  let p ← prepare i
  runPrepared i p

end CommandLine

end EmuControl
