import EmuControl.CommandLine.Help
import EmuControl.CommandLine.Run
import EmuControl.Daemon.Transport

/-!
# The executable

Carries out the actions of programs: files, the terminal and the log are those of the operating
system. The network is not part of this library, so a call is answered as by a host that refuses
connections.
-/
namespace EmuControl

open CommandLine Number

/-- The error of a file operation. -/
def FileError.ofSystem : IO.Error → FileError
  | .noFileOrDirectory _ _ _ => .notFound
  | e => .other (toString e)

/-- An event as a line of a log. -/
def Log.Event.line (e : Log.Event) : String :=
  let procedure := match e.procedure with
    | some p => ",\"rpc\":" ++ Json.quoted p
    | none => ""
  "\x7b\"level\":" ++ Json.quoted e.level.label ++ ",\"fields\":\x7b\"message\":" ++
    Json.quoted e.message ++ procedure ++ "\x7d,\"target\":" ++ Json.quoted e.component.path ++
    "\x7d\n"

def writeEvent (sink : Sink) (e : Log.Event) : IO Unit := do
  match sink with
  | .nowhere => pure ()
  | .terminal => IO.eprint (e.level.label ++ " " ++ e.component.path ++ ": " ++ e.message ++ "\n")
  | .file path =>
    let handle ← IO.FS.Handle.mk path .append
    handle.putStr e.line

def toBytes (b : ByteArray) : Bytes :=
  b.data.toList

def ofBytes (b : Bytes) : ByteArray :=
  ⟨b.toArray⟩

/-- Carries out one action. -/
def carryOut (address : String) (sink : Sink) : (a : Action) → IO a.Answer
  | .call c => pure (Daemon.unreachable ⟨address, .refused⟩ c ()).1
  | .log e => writeEvent sink e
  | .readFile name => do
    try return .ok (toBytes (← IO.FS.readBinFile name))
    catch e => return .error (.ofSystem e)
  | .writeFile name contents => do
    try
      IO.FS.writeBinFile name (ofBytes contents)
      return .ok ()
    catch e => return .error (.ofSystem e)
  | .print text => IO.print text
  | .complain text => IO.eprint text

/-- Carries out a program. -/
def Program.carryOut {α : Type} (address : String) (sink : Sink) : Program α → IO α
  | done a => pure a
  | act a next => do
    let answer ← EmuControl.carryOut address sink a
    (next answer).carryOut address sink

/-- Runs a command line and gives the exit status. -/
def runCommandLine (args : List String) : IO Nat := do
  match Invocation.ofArguments args with
  | .error stop =>
    let (output, complaint, status) := stop.answer
    IO.print output
    IO.eprint complaint
    return status
  | .ok i =>
    let p ← (prepare i).carryOut "" .nowhere
    let address := p.settings.address ++ ":" ++ writeNatural p.settings.port.toNat
    (runPrepared i p).carryOut address p.sink

end EmuControl

def main (args : List String) : IO UInt32 := do
  return (← EmuControl.runCommandLine args).toUInt32
