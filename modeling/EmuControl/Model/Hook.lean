import EmuControl.Model.Link
import EmuControl.Model.Node
import EmuControl.Model.Session

/-!
# Hooks and snapshots

A hook is a script that the daemon runs when a session reaches a state. A snapshot is what the
daemon reports about a session.
-/
namespace EmuControl

structure Hook where
  state : SessionState
  file : String
  data : String := ""
  deriving DecidableEq, Repr

/-- Snapshot of a session of the daemon. -/
structure Session where
  id : Int32
  state : SessionState
  nodes : List Node
  links : List Link
  deriving DecidableEq, Repr

end EmuControl
