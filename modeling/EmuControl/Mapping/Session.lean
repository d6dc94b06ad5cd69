import EmuControl.Mapping.Link
import EmuControl.Mapping.Node
import EmuControl.Model.Hook
import EmuControl.Wire.Message.Session

/-!
# Sessions and hooks on the wire

The daemon puts nodes of its own behind point-to-point links. They are left out of a snapshot, and
nothing about them is looked at.
-/
namespace EmuControl

namespace SessionSummary

def ofWire (s : Wire.SessionSummary) : Mapped SessionSummary := do
  let state ← SessionState.ofNumber s.state
  return { id := s.id, state, nodeCount := s.nodes }

end SessionSummary

namespace Session

/-- Faults are reported in the order nodes, state, links. -/
def ofWire (s : Wire.Session) : Mapped Session := do
  let visible := s.nodes.filter fun n => n.kind != NodeKind.peerToPeer.number
  let nodes ← visible.mapM Node.ofWire
  let state ← SessionState.ofNumber s.state
  let links ← s.links.mapM Link.ofWire
  return { id := s.id, state, nodes, links }

end Session

namespace Hook

def toWire (h : Hook) : Wire.Hook :=
  { state := h.state.number
    file := h.file
    data := Bytes.ofText h.data }

/-- Data that is no text is reported before an unknown state. -/
def ofWire (h : Wire.Hook) : Mapped Hook :=
  match Bytes.toText? h.data with
  | none => .error (.invalidText ("hook " ++ h.file))
  | some data => do
    let state ← SessionState.ofNumber h.state
    return { state, file := h.file, data }

end Hook

end EmuControl
