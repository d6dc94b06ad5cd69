import EmuControl.Model.Configuration
import EmuControl.Model.Hook
import EmuControl.Model.Service
import EmuControl.Number.Decimal
import EmuControl.Number.Integer
import EmuControl.Table.Layout
import EmuControl.Text.Line

/-!
# Views of the model

How sessions, nodes, links and configurations are shown to a user. What is open is shown as a dash.
-/
namespace EmuControl.Table

open EmuControl.Number EmuControl.Text

/-- A value that may be open. -/
def orDash {α : Type} (text : α → String) : Option α → String
  | some a => text a
  | none => "-"

def boxed (titles : List String) (rows : List (List String)) : Table :=
  { isBoxed := true, header := some titles, rows }

/-- A running session is marked. -/
def stateCell (s : SessionState) : String :=
  if s = .runtime then "✓ " ++ s.name else s.name

def ofSessions (sessions : List SessionSummary) : Table :=
  boxed ["Session", "State", "Nodes"] (sessions.map fun s =>
    [writeInt32 s.id, stateCell s.state, writeInt32 s.nodeCount])

/-- Coordinates are rounded to integers when both are known. -/
def positionCell : Option Position → String
  | some ⟨some x, some y⟩ => x.wholeText ++ ", " ++ y.wholeText
  | some p => orDash Binary64.plainText p.x ++ ", " ++ orDash Binary64.plainText p.y
  | none => "-"

def ofNodes (nodes : List Node) : Table :=
  boxed ["Id", "Name", "Type", "Model", "Position", "Services"] (nodes.map fun n =>
    [orDash writeInt32 n.id, n.name.getD "-", n.kind.name, n.model.getD "-",
     positionCell n.position, " ".intercalate (SortedSet.toList n.services)])

/-- Address and mask of an interface that has an address. -/
def addressText (i : Option Interface) : String :=
  match i with
  | some ⟨_, _, _, some ip, mask, _, _⟩ => ip ++ "/" ++ orDash writeInt32 mask
  | _ => "-"

/-- The options of a link that shape its traffic. -/
def linkOptionsCell : Option LinkOptions → String
  | none => ""
  | some o =>
    let shown := [("bw", o.bandwidth), ("delay", o.delay), ("jitter", o.jitter), ("loss", o.per),
      ("dup", o.dup)]
    " ".intercalate (shown.filterMap fun (name, value) =>
      value.map fun x => name ++ "=" ++ x.plainText)

def ofLinks (links : List Link) : Table :=
  boxed ["Node 1", "Node 2", "Addresses", "Options"] (links.map fun l =>
    [orDash writeInt32 l.nodeOne, orDash writeInt32 l.nodeTwo,
     addressText l.interfaceOne ++ " ↔ " ++ addressText l.interfaceTwo,
     linkOptionsCell l.options])

def ofHooks (hooks : List Hook) : Table :=
  boxed ["State", "File", "Lines"] (hooks.map fun h =>
    [h.state.name, h.file, writeNatural (lines h.data.toList).length])

def ofServices (groups : ServiceGroups) : Table :=
  boxed ["Group", "Services"] (groups.entries.map fun (group, services) =>
    [group, ", ".intercalate services])

def ofConfigGroups (groups : List ConfigGroup) : Table :=
  boxed ["Group", "Option", "Value", "Label"] (groups.flatMap fun g =>
    g.options.map fun o => [g.name, o.name, o.value, o.label])

def ofLocation (c : LocationConfig) : Table :=
  let number := orDash Binary64.plainText
  { isBoxed := false
    header := none
    rows :=
      [["Scale", number c.scale],
       ["Canvas", number c.position.x ++ ", " ++ number c.position.y ++ ", " ++
         number c.position.z],
       ["Latitude", number c.location.latitude],
       ["Longitude", number c.location.longitude],
       ["Altitude", number c.location.altitude]] }

end EmuControl.Table
