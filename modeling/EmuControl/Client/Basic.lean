import EmuControl.Client.Error
import EmuControl.Daemon.Program
import EmuControl.Model.Session

/-!
# Operations of a client

An operation is a program that ends in a value or an error. Operations that change the state of a
session carry the session's context along, so that the context is known after an error as well.
-/
namespace EmuControl

open Wire

/-- An operation that may fail. -/
abbrev ClientM := ExceptT ConnectError Program

/-- An operation on a session, which may change the session's context and may fail. -/
abbrev SessionM := ExceptT ConnectError (StateT SessionContext Program)

namespace Client

/-- Makes one call. -/
def request (m : Method) (r : m.Request) : ClientM m.Response :=
  ExceptT.mk do
    match ← Program.call m r with
    | .ok response => return .ok response
    | .error e => return .error (.ofApi e)

/-- Lets an error of a mapping end the operation. -/
def mapped {α : Type} : Mapped α → ClientM α
  | .ok a => pure a
  | .error e => throw (.mapping e)

/-- Logs an event of the client. -/
def note (level : Log.Level) (message : String) : ClientM Unit :=
  ExceptT.lift (Program.log level .client message)

/-- An operation that leaves the context alone, as one on a session. -/
def onSession {α : Type} (op : SessionContext → ClientM α) : SessionM α :=
  ExceptT.mk fun ctx => do
    let result ← (op ctx).run
    return (result, ctx)

/-- `true` or `false`. -/
def truthText (b : Bool) : String := if b then "true" else "false"

/-- An integer that may be open, for a log. -/
def optionText : Option Int32 → String
  | none => "None"
  | some n => "Some(" ++ Number.writeInt32 n ++ ")"

/-- How events begin that are about a session. -/
def sessionText (ctx : SessionContext) : String :=
  "Session " ++ Number.writeInt32 ctx.id ++ ": "

end Client

end EmuControl
