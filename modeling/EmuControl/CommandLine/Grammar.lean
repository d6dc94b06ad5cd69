import EmuControl.Log
import EmuControl.Model.Session
import EmuControl.Number.Integer

/-!
# The grammar of the command line

Options and commands as data: the reader of arguments and the help texts are both made from it.
-/
namespace EmuControl.CommandLine

open EmuControl.Number

/-- What may be given as a value. -/
inductive ValueKind where
  | text
  /-- The name of a file, which may not be empty. -/
  | path
  | port
  | sessionId
  | level
  | state
  | shell
  deriving DecidableEq, Repr

/-- The shells that completions can be made for. -/
inductive Shell where
  | bash
  | elvish
  | fish
  | powershell
  | zsh
  deriving DecidableEq, Repr

namespace Shell

def all : List Shell := [.bash, .elvish, .fish, .powershell, .zsh]

def name : Shell → String
  | .bash => "bash"
  | .elvish => "elvish"
  | .fish => "fish"
  | .powershell => "powershell"
  | .zsh => "zsh"

def ofName? (s : String) : Option Shell :=
  all.find? fun shell => shell.name = s

end Shell

namespace ValueKind

/-- Whether a text is a value of the kind. -/
def accepts : ValueKind → String → Bool
  | text, _ => true
  | path, s => s ≠ ""
  | port, s => (readUInt16? s).isSome
  | sessionId, s => (readInt32? s).isSome
  | level, s => (Log.Level.ofName? s).isSome
  | state, s => (SessionState.parse? s).isSome
  | shell, s => (Shell.ofName? s).isSome

/-- The values of a kind that has only a few. -/
def choices : ValueKind → List String
  | level => Log.Level.all.map Log.Level.name
  | shell => Shell.all.map Shell.name
  | _ => []

end ValueKind

/-- What an option is for. -/
inductive Role where
  | flag
  | value (kind : ValueKind) (label : String)
  | help
  | version
  deriving DecidableEq, Repr

structure OptionSpec where
  short : Option Char
  long : String
  role : Role
  description : String
  /-- Whether the command cannot do without it. -/
  isRequired : Bool := false
  deriving DecidableEq, Repr

/-- An argument that is told by its place. -/
structure PositionalSpec where
  label : String
  kind : ValueKind
  description : String := ""
  deriving DecidableEq, Repr

structure CommandSpec where
  name : String
  description : String
  options : List OptionSpec := []
  positionals : List PositionalSpec := []
  deriving DecidableEq, Repr

/-- Options that every command has, before or after its name. -/
def sharedOptions : List OptionSpec :=
  [⟨some 'c', "config", .value .path "FILE", "Configuration file (TOML)", false⟩,
   ⟨some 'a', "address", .value .text "ADDRESS", "CORE daemon address [default: localhost]", false⟩,
   ⟨some 'p', "port", .value .port "PORT", "CORE daemon gRPC port [default: 50051]", false⟩,
   ⟨none, "log-level", .value .level "LOG_LEVEL", "Log level", false⟩,
   ⟨none, "log", .value .path "FILE", "Write JSON logs to this file", false⟩,
   ⟨some 'v', "verbose", .flag, "Verbose output (debug logging)", false⟩]

def helpOption : OptionSpec := ⟨some 'h', "help", .help, "Print help", false⟩

def versionOption : OptionSpec := ⟨some 'V', "version", .version, "Print version", false⟩

def sessionPlace : PositionalSpec := ⟨"SESSION", .sessionId, ""⟩

def filePlace : PositionalSpec := ⟨"FILE", .path, ""⟩

def commands : List CommandSpec :=
  [{ name := "sessions", description := "List sessions on the daemon" },
   { name := "create", description := "Create an empty session" },
   { name := "delete", description := "Delete a session", positionals := [sessionPlace] },
   { name := "show"
     description := "Show the nodes and links of a session"
     options := [⟨none, "json", .flag, "Print the snapshot as JSON", false⟩]
     positionals := [sessionPlace] },
   { name := "start"
     description := "Build a topology file into a session and instantiate it"
     options :=
       [⟨some 't', "topology", .value .path "FILE", "Topology file (.toml or .json)", true⟩,
        ⟨some 's', "session", .value .sessionId "SESSION",
          "Add to this session instead of creating a new one", false⟩] },
   { name := "stop", description := "Shut a session down", positionals := [sessionPlace] },
   { name := "state"
     description := "Move a session to another state"
     positionals :=
       [sessionPlace,
        ⟨"STATE", .state,
          "DEFINITION, CONFIGURATION, INSTANTIATION, RUNTIME, DATACOLLECT or SHUTDOWN"⟩] },
   { name := "hooks", description := "List the hooks of a session", positionals := [sessionPlace] },
   { name := "options", description := "Show session options", positionals := [sessionPlace] },
   { name := "services", description := "List the services the daemon offers" },
   { name := "location"
     description := "Show the geographic reference point of a session"
     positionals := [sessionPlace] },
   { name := "save"
     description := "Save a session as CORE XML"
     positionals := [sessionPlace, filePlace] },
   { name := "open"
     description := "Open a CORE XML file as a new session"
     positionals := [filePlace] },
   { name := "service-update"
     description := "Rewrite a legacy service definition for current daemons"
     options :=
       [⟨some 'f', "file", .value .path "FILE",
          "Service file to update; the result is written to FILE.update", true⟩] },
   { name := "completions"
     description := "Generate shell completions"
     positionals := [⟨"SHELL", .shell, ""⟩] }]

def command? (name : String) : Option CommandSpec :=
  commands.find? fun c => c.name = name

end EmuControl.CommandLine
