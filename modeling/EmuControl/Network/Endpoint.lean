import EmuControl.Client.Basic
import EmuControl.Network.Address
import EmuControl.Network.Uri
import EmuControl.Number.Integer

/-!
# Endpoints

The address and port on which a daemon is expected. Preparing a connection does not touch the
network: it only checks that address and port make a web address. A daemon that is not there shows
itself with the first call.
-/
namespace EmuControl.Network

open EmuControl.Number

structure Endpoint where
  address : String
  port : UInt16
  deriving DecidableEq, Repr

/-- The port on which a daemon serves unless it is told otherwise. -/
def defaultPort : UInt16 := 50051

namespace Endpoint

/-- The web address of an endpoint. An address of the newer kind stands in brackets. -/
def uri (e : Endpoint) : String :=
  let host := if (ipv6? e.address).isSome then "[" ++ e.address ++ "]" else e.address
  "http://" ++ host ++ ":" ++ writeNatural e.port.toNat

/-- Whether the daemon runs on this host. -/
def isLocal (e : Endpoint) : Bool :=
  e.address.map Char.toLower = "localhost" || isLoopbackLiteral e.address

/-- Prepares the connection. -/
def connect (e : Endpoint) : ClientM Unit := do
  ExceptT.lift
    (Program.log .debug .connection ("Preparing channel to CORE daemon at " ++ e.uri))
  if (Uri.parse? e.uri).isNone then
    throw (.invalidEndpoint e.uri "invalid URI")
  ExceptT.lift (Program.log .info .connection ("Using CORE daemon at " ++ e.uri))

end Endpoint

end EmuControl.Network
