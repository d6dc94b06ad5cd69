import EmuControl.Daemon.Recording

/-!
# Daemons behind a channel

A channel carries the path of a method and the bytes of a request, and brings back the bytes of a
response or a status. A served daemon decodes the request by its path; the client's end of the
channel decodes the response. A malformed response on the far side comes back as an internal error
with its text.
-/
namespace EmuControl

open Wire

/-- A server with states in `σ`: bytes by path. -/
abbrev Server (σ : Type) := (path : String) → Bytes → σ → Except Status Bytes × σ

/-- The status that an error of the served daemon becomes. -/
def ApiError.toStatus : ApiError → Status
  | .status s => s
  | e@(.malformedResponse _ _) => ⟨.internal, e.message, none⟩

/-- Serves a daemon. -/
def Daemon.serve {σ : Type} (daemon : Daemon σ) : Server σ := fun path bytes s =>
  match Method.ofPath? path with
  | none => (.error ⟨.unimplemented, "", none⟩, s)
  | some m =>
    match (Message.decode? bytes : Option m.Request) with
    | none => (.error ⟨.internal, Recording.undecodable, none⟩, s)
    | some request =>
      match daemon ⟨m, request⟩ s with
      | (.ok response, s) => (.ok (Message.encode response), s)
      | (.error e, s) => (.error e.toStatus, s)

/-- What is said of a response that is longer than the client accepts. -/
def tooLong (size limit : Nat) : String :=
  "Error, decoded message length too large: found " ++ Number.writeNatural size ++
    " bytes, the limit is: " ++ Number.writeNatural limit ++ " bytes"

/-- The client's end of a channel. A response may be refused for its length. -/
def Server.connect {σ : Type} (server : Server σ) (limit : Option Nat) : Daemon σ := fun c s =>
  match server c.method.path c.payload s with
  | (.error status, s) => (.error (.status status), s)
  | (.ok bytes, s) =>
    match limit.filter (· < bytes.length) with
    | some limit => (.error (.status ⟨.outOfRange, tooLong bytes.length limit, none⟩), s)
    | none =>
      match Message.decode? bytes with
      | some response => (.ok response, s)
      | none => (.error (.status ⟨.internal, Recording.undecodable, none⟩), s)

/-- A daemon that cannot be connected to. -/
def Daemon.unreachable {σ : Type} (f : ConnectFailure) : Daemon σ := fun _ s =>
  (.error (.status (.disconnected f)), s)

/-- Keeps the paths that requests come in on. -/
def Server.withPaths {σ : Type} (server : Server σ) : Server (σ × List String) :=
  fun path bytes (s, paths) =>
    let (answer, s) := server path bytes s
    (answer, (s, paths ++ [path]))

end EmuControl
