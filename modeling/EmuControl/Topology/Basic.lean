import EmuControl.Document.Model
import EmuControl.Number.Integer

/-!
# Topologies

The nodes, links and hooks that a session is started with. A topology is valid when no step of a
start is bound to fail: ids of nodes are given once, wireless networks have one, and every link
joins two different nodes. A link may join nodes that the topology does not hold, because the
session may have them already.
-/
namespace EmuControl

open EmuControl.Number FieldReader

structure Topology where
  nodes : List Node := []
  links : List Link := []
  hooks : List Hook := []
  deriving DecidableEq, Repr

instance : Readable Topology where
  read dialect := readRecord ["nodes", "links", "hooks"] (do
    let nodes ← defaulted [] (read dialect)
    let links ← defaulted [] (read dialect)
    let hooks ← defaulted [] (read dialect)
    return { nodes, links, hooks }) dialect

instance : Writable Topology where
  write t := .table (field "nodes" t.nodes ++ field "links" t.links ++ field "hooks" t.hooks)

/-- What is wrong with a topology. Positions count from 1. -/
inductive Offence where
  /-- The id was given to an earlier node. -/
  | duplicateId (id : Int32)
  /-- A wireless network has no id. -/
  | wlanWithoutId (position : Nat)
  /-- A link does not say which nodes it joins. -/
  | openLink (position : Nat)
  /-- A link joins a node to itself. -/
  | selfLink (position : Nat) (id : Int32)
  deriving DecidableEq, Repr

def Offence.message : Offence → String
  | duplicateId id => "duplicate node id " ++ writeInt32 id
  | wlanWithoutId position => "WLAN node #" ++ writeNatural position ++ " has no id"
  | openLink position => "link #" ++ writeNatural position ++ " must name both nodes"
  | selfLink position id =>
    "link #" ++ writeNatural position ++ " connects node " ++ writeInt32 id ++ " to itself"

namespace Topology

def isEmpty (t : Topology) : Bool :=
  t.nodes.isEmpty && t.links.isEmpty && t.hooks.isEmpty

/-- What is wrong with the first bad node, when the ids in `seen` are taken and the next node has
the given position. -/
def nodeOffence? (seen : List Int32) (position : Nat) : List Node → Option Offence
  | [] => none
  | n :: rest =>
    match n.id with
    | some id =>
      if id ∈ seen then some (.duplicateId id) else nodeOffence? (id :: seen) (position + 1) rest
    | none =>
      if n.isWlan then some (.wlanWithoutId position) else nodeOffence? seen (position + 1) rest

/-- What is wrong with the first bad link, when the next link has the given position. -/
def linkOffence? (position : Nat) : List Link → Option Offence
  | [] => none
  | l :: rest =>
    match l.nodeOne, l.nodeTwo with
    | some one, some two =>
      if one = two then some (.selfLink position one) else linkOffence? (position + 1) rest
    | _, _ => some (.openLink position)

/-- The first thing that is wrong, nodes before links. -/
def offence? (t : Topology) : Option Offence :=
  (nodeOffence? [] 1 t.nodes).or (linkOffence? 1 t.links)

/-- Accepts a valid topology, and says of any other what is wrong with it first. -/
def validate (t : Topology) : Except String Unit :=
  match t.offence? with
  | none => .ok ()
  | some o => .error o.message

/-- Whether two topologies are equal, numbers compared by value. -/
def same (t u : Topology) : Bool :=
  (write t).same (write u)

end Topology

end EmuControl
