import EmuControl.Number.Binary

/-!
# Links between nodes

A link joins two nodes through an interface on each side. Shaping parameters that are left open are
not sent to the daemon at all.
-/
namespace EmuControl

open EmuControl.Number

inductive LinkKind where
  | wireless
  | wired
  deriving DecidableEq, Repr

namespace LinkKind

def all : List LinkKind := [.wireless, .wired]

def name : LinkKind → String
  | .wireless => "wireless"
  | .wired => "wired"

end LinkKind

/-- One end of a link. -/
structure Interface where
  id : Option Int32 := none
  name : Option String := none
  mac : Option String := none
  ip4 : Option String := none
  ip4Mask : Option Int32 := none
  ip6 : Option String := none
  /-- A length in text; an integer on the wire. -/
  ip6Mask : Option String := none
  deriving DecidableEq, Repr

/-- Shaping parameters of a link. -/
structure LinkOptions where
  bandwidth : Option Binary64 := none
  burst : Option Binary64 := none
  delay : Option Binary64 := none
  jitter : Option Binary64 := none
  /-- Rate of duplication. -/
  dup : Option Binary64 := none
  /-- Rate of loss. -/
  per : Option Binary64 := none
  mburst : Option Binary64 := none
  mer : Option Binary64 := none
  opaqueData : Option String := none
  key : Option Int32 := none
  /-- The link is asymmetric when this is exactly 1. -/
  unidirectional : Int32 := 0
  deriving DecidableEq, Repr

structure Link where
  nodeOne : Option Int32 := none
  nodeTwo : Option Int32 := none
  interfaceOne : Option Interface := none
  interfaceTwo : Option Interface := none
  options : Option LinkOptions := none
  kind : LinkKind := .wired
  deriving DecidableEq, Repr

/-- A wired link whose interfaces are left to the daemon. -/
def Link.between (one two : Int32) : Link :=
  { nodeOne := some one, nodeTwo := some two }

end EmuControl
