import EmuControl.Number.Integer
import EmuControl.Text.Quoted

/-!
# Calls that do not complete

A call fails with a status, or with a response that cannot be made use of. A call that completes
with a negative acknowledgment has not failed.
-/
namespace EmuControl

open EmuControl.Number EmuControl.Text

inductive StatusCode where
  | ok
  | cancelled
  | unknown
  | invalidArgument
  | deadlineExceeded
  | notFound
  | alreadyExists
  | permissionDenied
  | resourceExhausted
  | failedPrecondition
  | aborted
  | outOfRange
  | unimplemented
  | internal
  | unavailable
  | dataLoss
  | unauthenticated
  deriving DecidableEq, Repr

namespace StatusCode

/-- All codes, each at the place of its number. -/
def all : List StatusCode :=
  [.ok, .cancelled, .unknown, .invalidArgument, .deadlineExceeded, .notFound, .alreadyExists,
   .permissionDenied, .resourceExhausted, .failedPrecondition, .aborted, .outOfRange,
   .unimplemented, .internal, .unavailable, .dataLoss, .unauthenticated]

/-- The code of a number; a number that has none stands for an unknown error. -/
def ofNumber (n : Int) : StatusCode :=
  if n < 0 then .unknown else (all[n.toNat]?).getD .unknown

def name : StatusCode → String
  | .ok => "Ok"
  | .cancelled => "Cancelled"
  | .unknown => "Unknown"
  | .invalidArgument => "InvalidArgument"
  | .deadlineExceeded => "DeadlineExceeded"
  | .notFound => "NotFound"
  | .alreadyExists => "AlreadyExists"
  | .permissionDenied => "PermissionDenied"
  | .resourceExhausted => "ResourceExhausted"
  | .failedPrecondition => "FailedPrecondition"
  | .aborted => "Aborted"
  | .outOfRange => "OutOfRange"
  | .unimplemented => "Unimplemented"
  | .internal => "Internal"
  | .unavailable => "Unavailable"
  | .dataLoss => "DataLoss"
  | .unauthenticated => "Unauthenticated"

def description : StatusCode → String
  | .ok => "The operation completed successfully"
  | .cancelled => "The operation was cancelled"
  | .unknown => "Unknown error"
  | .invalidArgument => "Client specified an invalid argument"
  | .deadlineExceeded => "Deadline expired before operation could complete"
  | .notFound => "Some requested entity was not found"
  | .alreadyExists => "Some entity that we attempted to create already exists"
  | .permissionDenied => "The caller does not have permission to execute the specified operation"
  | .resourceExhausted => "Some resource has been exhausted"
  | .failedPrecondition => "The system is not in a state required for the operation's execution"
  | .aborted => "The operation was aborted"
  | .outOfRange => "Operation was attempted past the valid range"
  | .unimplemented => "Operation is not implemented or not supported"
  | .internal => "Internal error"
  | .unavailable => "The service is currently unavailable"
  | .dataLoss => "Unrecoverable data loss or corruption"
  | .unauthenticated => "The request does not have valid authentication credentials"

end StatusCode

/-- Why a host could not be connected to. -/
inductive ConnectFault where
  | refused
  | unreachable
  deriving DecidableEq, Repr

namespace ConnectFault

/-- The error number of the operating system. -/
def number : ConnectFault → Nat
  | .refused => 111
  | .unreachable => 101

def kind : ConnectFault → String
  | .refused => "ConnectionRefused"
  | .unreachable => "NetworkUnreachable"

def text : ConnectFault → String
  | .refused => "Connection refused"
  | .unreachable => "Network is unreachable"

end ConnectFault

/-- A connection that could not be made. -/
structure ConnectFailure where
  /-- Host and port. -/
  address : String
  fault : ConnectFault
  deriving DecidableEq, Repr

namespace ConnectFailure

/-- The layers of the failure in one text, as a status shows them. -/
def detail (f : ConnectFailure) : String :=
  "tonic::transport::Error(Transport, ConnectError(ConnectError(\"tcp connect error\", " ++
    f.address ++ ", Os \x7b code: " ++ writeNatural f.fault.number ++ ", kind: " ++ f.fault.kind ++
    ", message: " ++ quote f.fault.text ++ " \x7d)))"

/-- The texts of the layers, outermost first. -/
def layers (f : ConnectFailure) : List String :=
  ["transport error", "tcp connect error", "tcp connect error",
   f.fault.text ++ " (os error " ++ writeNatural f.fault.number ++ ")"]

end ConnectFailure

/-- The outcome of a call that did not complete. -/
structure Status where
  code : StatusCode
  message : String
  /-- Set when there was no connection. -/
  failure : Option ConnectFailure := none
  deriving DecidableEq, Repr

namespace Status

def text (s : Status) : String :=
  "code: '" ++ s.code.description ++ "'" ++
    (if s.message = "" then "" else ", message: " ++ quote s.message) ++
    (match s.failure with
      | none => ""
      | some f => ", source: " ++ f.detail)

/-- The status of a call for which there was no connection. -/
def disconnected (f : ConnectFailure) : Status :=
  { code := .unavailable, message := "tcp connect error", failure := some f }

end Status

inductive ApiError where
  | status (s : Status)
  | malformedResponse (method reason : String)
  deriving DecidableEq, Repr

namespace ApiError

/-- A response lacks a field that it has to have. -/
def missingField (method field : String) : ApiError :=
  .malformedResponse method s!"missing field `{field}`"

def code? : ApiError → Option StatusCode
  | status s => some s.code
  | malformedResponse _ _ => none

def message : ApiError → String
  | status s => "gRPC status error: " ++ s.text
  | malformedResponse method reason => s!"Malformed response from {method}: {reason}"

end ApiError

end EmuControl
