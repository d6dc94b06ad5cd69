import EmuControl.Document.Record
import EmuControl.Log
import EmuControl.Network.Endpoint
import EmuControl.Toml.Reader
import EmuControl.Toml.Writer
import EmuControl.Workflow.Error

/-!
# Settings

Where the daemon is and what is logged. Settings are kept in a TOML file, in which everything has a
default, and the command line may override them.
-/
namespace EmuControl

open FieldReader

structure Settings where
  address : String := "localhost"
  port : UInt16 := Network.defaultPort
  logLevel : Log.Level := .warn
  /-- The file that events are logged to, in place of the terminal. -/
  logFile : Option String := none
  /-- Whether more is logged than `logLevel` says. -/
  verbose : Bool := false
  deriving DecidableEq, Repr

instance : Readable Log.Level := ⟨readMember Log.Level.all Log.Level.name⟩
instance : Writable Log.Level := ⟨fun l => .text l.name⟩

instance : Readable Settings where
  read dialect := readRecord ["address", "port", "log_level", "log_file", "verbose"] (do
    let standard : Settings := {}
    let address ← defaulted standard.address (read dialect)
    let port ← defaulted standard.port (read dialect)
    let logLevel ← defaulted standard.logLevel (read dialect)
    let logFile ← optional (read dialect)
    let verbose ← defaulted standard.verbose (read dialect)
    return { address, port, logLevel, logFile, verbose }) dialect

instance : Writable Settings where
  write s := .table
    (field "address" s.address ++ field "port" s.port ++ field "log_level" s.logLevel ++
      field "log_file" s.logFile ++ field "verbose" s.verbose)

inductive SettingsError where
  | file (e : FileError)
  /-- The text of the file does not say settings. -/
  | unparsable
  deriving DecidableEq, Repr

def SettingsError.message : SettingsError → String
  | file e => e.message
  | unparsable => "not a configuration"

namespace Settings

def endpoint (s : Settings) : Network.Endpoint :=
  ⟨s.address, s.port⟩

/-- What is given replaces what the settings say; verbosity is only ever turned on. -/
def override (s : Settings) (address : Option String) (port : Option UInt16) (verbose : Bool) :
    Settings :=
  { s with
    address := address.getD s.address
    port := port.getD s.port
    verbose := s.verbose || verbose }

/-- The least important events that are logged. -/
def effectiveLevel (s : Settings) : Log.Level :=
  if s.verbose then .debug else s.logLevel

/-- The settings that a text says. -/
def ofText (text : String) : Except SettingsError Settings :=
  match Toml.readText? text with
  | some s => .ok s
  | none => .error .unparsable

def toText (s : Settings) : String :=
  Toml.pretty (write s)

def load (path : String) : Program (Except SettingsError Settings) := do
  match ← (Workflow.readTextFile path).run with
  | .ok text => return ofText text
  | .error (.file e) => return .error (.file e)
  | .error _ => return .error .unparsable

def save (s : Settings) (path : String) : WorkflowM Unit :=
  Workflow.writeFile path (.ofText s.toText)

end Settings

end EmuControl
