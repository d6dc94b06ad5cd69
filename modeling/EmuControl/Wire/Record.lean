import EmuControl.Wire.Varint

/-!
# Tagged records

An encoded message is a sequence of records. A record has the tag of a field and a payload in one of
the shapes that the wire format knows; it says nothing about the meaning of the field. A group is
read over: only that it is well formed counts, as no field of any message is one.

`Record.encodeAll` writes records and `Record.parse` reads them; whatever bytes are not a sequence
of records are refused as a whole.
-/
namespace EmuControl.Wire

inductive Payload where
  | varint (n : UInt64)
  | fixed64 (n : UInt64)
  | delimited (bytes : Bytes)
  | group
  | fixed32 (n : UInt32)
  deriving DecidableEq, Repr

structure Record where
  tag : Nat
  payload : Payload
  deriving DecidableEq, Repr

/-- The head of a record: a tag and the shape of what follows. -/
structure Key where
  tag : Nat
  wireType : Nat
  deriving DecidableEq, Repr

namespace Key

def encode (k : Key) : Bytes :=
  Varint.encode (k.tag * 8 + k.wireType)

/-- A key has at most 32 bits, and its tag is not zero. -/
def read (bytes : Bytes) : Option (Key × Bytes) := do
  let (n, rest) ← Varint.read bytes
  if n < UInt32.size ∧ n / 8 ≠ 0 then some (⟨n / 8, n % 8⟩, rest) else none

end Key

/-- The first `n` octets and the rest, if there are so many. -/
def splitBytes (n : Nat) (bytes : Bytes) : Option (Bytes × Bytes) :=
  if n ≤ bytes.length then some (bytes.take n, bytes.drop n) else none

/-- A number in little-endian octets. -/
def littleEndian : (width : Nat) → Nat → Bytes
  | 0, _ => []
  | width + 1, n => UInt8.ofNat (n % 256) :: littleEndian width (n / 256)

/-- The number that little-endian octets stand for. -/
def ofLittleEndian : Bytes → Nat
  | [] => 0
  | b :: rest => b.toNat + 256 * ofLittleEndian rest

/-- The payload of a wire type, groups apart. -/
def Payload.read (wireType : Nat) (bytes : Bytes) : Option (Payload × Bytes) :=
  match wireType with
  | 0 => do
    let (n, rest) ← Varint.read bytes
    some (.varint (UInt64.ofNat n), rest)
  | 1 => do
    let (octets, rest) ← splitBytes 8 bytes
    some (.fixed64 (UInt64.ofNat (ofLittleEndian octets)), rest)
  | 2 => do
    let (n, rest) ← Varint.read bytes
    let (body, rest) ← splitBytes n rest
    some (.delimited body, rest)
  | 5 => do
    let (octets, rest) ← splitBytes 4 bytes
    some (.fixed32 (UInt32.ofNat (ofLittleEndian octets)), rest)
  | _ => none

/-- Reads on to the end of the outermost of the groups `opened`, innermost first. A group ends with
its own tag, and less than `budget` groups may be open around a record. -/
def skipGroup (budget : Nat) : (fuel : Nat) → (opened : List Nat) → Bytes → Option Bytes
  | 0, _, _ => none
  | _, [], bytes => some bytes
  | fuel + 1, tag :: outer, bytes => do
    let (key, rest) ← Key.read bytes
    if key.wireType = 4 then
      if key.tag = tag then
        if outer.isEmpty then some rest else skipGroup budget fuel outer rest
      else none
    else if budget ≤ outer.length + 1 then none
    else if key.wireType = 3 then skipGroup budget fuel (key.tag :: tag :: outer) rest
    else do
      let (_, rest) ← Payload.read key.wireType rest
      skipGroup budget fuel (tag :: outer) rest

namespace Record

def encode (r : Record) : Bytes :=
  match r.payload with
  | .varint n => Key.encode ⟨r.tag, 0⟩ ++ Varint.encode n.toNat
  | .fixed64 n => Key.encode ⟨r.tag, 1⟩ ++ littleEndian 8 n.toNat
  | .delimited bytes => Key.encode ⟨r.tag, 2⟩ ++ Varint.encode bytes.length ++ bytes
  | .group => Key.encode ⟨r.tag, 3⟩ ++ Key.encode ⟨r.tag, 4⟩
  | .fixed32 n => Key.encode ⟨r.tag, 5⟩ ++ littleEndian 4 n.toNat

def encodeAll (rs : List Record) : Bytes :=
  rs.flatMap encode

/-- The record at the head of the input, and the rest. -/
def read (budget : Nat) (bytes : Bytes) : Option (Record × Bytes) := do
  let (key, rest) ← Key.read bytes
  if key.wireType = 3 then
    let rest ← skipGroup budget rest.length [key.tag] rest
    some (⟨key.tag, .group⟩, rest)
  else
    let (payload, rest) ← Payload.read key.wireType rest
    some (⟨key.tag, payload⟩, rest)

/-- Reads records to the end of the input, `fuel` of them at most. -/
def readAll (budget : Nat) : (fuel : Nat) → Bytes → Option (List Record)
  | _, [] => some []
  | 0, _ => none
  | fuel + 1, bytes => do
    let (r, rest) ← read budget bytes
    (readAll budget fuel rest).map (r :: ·)

/-- The records that the input consists of. `budget` limits how deep groups may be nested. -/
def parse (budget : Nat) (bytes : Bytes) : Option (List Record) :=
  readAll budget bytes.length bytes

end Record

end EmuControl.Wire
