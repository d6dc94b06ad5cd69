import EmuControl.Client.Error
import EmuControl.Daemon.FileSystem
import EmuControl.Daemon.Program

/-!
# Errors of a workflow

A workflow may fail on a file, on a configuration, on what a file says, on the daemon, or because
the daemon refuses a request. The exit status of the command line tells those that leave a session
usable from those that do not.
-/
namespace EmuControl

inductive WorkflowError where
  | file (e : FileError)
  | configuration (reason : String)
  | invalidFile (path reason : String)
  | client (e : ConnectError)
  /-- The daemon refused a request. -/
  | rejected (what : String)
  deriving DecidableEq, Repr

namespace WorkflowError

/-- The status that the command line exits with. -/
def exitCode : WorkflowError → Nat
  | file _ => 1
  | configuration _ => 2
  | invalidFile _ _ => 2
  | client e => if e.isTransportFault then 2 else 1
  | rejected _ => 1

/-- Whether the daemon was not reached. -/
def isConnectionError : WorkflowError → Bool
  | client (.invalidEndpoint _ _) => true
  | client e => e.code? = some .unavailable
  | _ => false

def message : WorkflowError → String
  | file e => "I/O error: " ++ e.message
  | configuration reason => "Configuration error: " ++ reason
  | invalidFile path reason => s!"Invalid file {path}: {reason}"
  | client e => "CORE daemon error: " ++ e.message
  | rejected what => "Request rejected by daemon: " ++ what

/-- The texts of what lies under the error, outermost first. -/
def causes : WorkflowError → List String
  | file e => [e.message]
  | client e => e.message :: e.causes
  | _ => []

/-- The error and all that lies under it in one text. -/
def chain (e : WorkflowError) : String :=
  ": ".intercalate (e.message :: e.causes)

end WorkflowError

/-- A program that may fail with an error of a workflow. -/
abbrev WorkflowM := ExceptT WorkflowError Program

namespace Workflow

/-- The contents of a file. -/
def readFile (name : String) : WorkflowM Bytes :=
  ExceptT.mk do
    match ← Program.perform (.readFile name) with
    | .ok bytes => return .ok bytes
    | .error e => return .error (.file e)

/-- The text of a file. -/
def readTextFile (name : String) : WorkflowM String := do
  let bytes ← readFile name
  match bytes.toText? with
  | some s => return s
  | none => throw (.file .notText)

def writeFile (name : String) (contents : Bytes) : WorkflowM Unit :=
  ExceptT.mk do
    match ← Program.perform (.writeFile name contents) with
    | .ok () => return .ok ()
    | .error e => return .error (.file e)

end Workflow

end EmuControl
