import EmuControl.Daemon.Error
import EmuControl.Mapping.Error

/-!
# Errors of a client

Three kinds of errors are kept apart: a call that did not complete, a value that could not be
mapped, and a node that lacks the id an operation needs. A refusal of the daemon is no error.
-/
namespace EmuControl

inductive ConnectError where
  | invalidEndpoint (endpoint reason : String)
  | status (s : Status)
  | malformedResponse (method reason : String)
  | mapping (e : MappingError)
  | missingNodeId (operation : String)
  deriving DecidableEq, Repr

namespace ConnectError

def ofApi : ApiError → ConnectError
  | .status s => .status s
  | .malformedResponse method reason => .malformedResponse method reason

/-- Whether a call could not complete. -/
def isTransportFault : ConnectError → Bool
  | invalidEndpoint _ _ => true
  | status _ => true
  | malformedResponse _ _ => true
  | mapping _ => false
  | missingNodeId _ => false

/-- Whether a value could not be mapped. -/
def isMappingError : ConnectError → Bool
  | mapping _ => true
  | _ => false

def code? : ConnectError → Option StatusCode
  | status s => some s.code
  | _ => none

def message : ConnectError → String
  | invalidEndpoint endpoint reason => s!"Invalid daemon endpoint {endpoint}: {reason}"
  | status s => "gRPC status error: " ++ s.text
  | malformedResponse method reason => s!"Malformed response from {method}: {reason}"
  | mapping e => "Mapping error: " ++ e.message
  | missingNodeId operation => s!"Node has no id; {operation} needs one"

/-- The texts of what lies under the error, outermost first. -/
def causes : ConnectError → List String
  | status s =>
    s.text :: match s.failure with
      | none => []
      | some f => f.layers
  | mapping e => [e.message]
  | _ => []

end ConnectError

end EmuControl
