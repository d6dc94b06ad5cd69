import EmuControl.Number.Binary
import EmuControl.Order.SortedMap
import EmuControl.Wire.Record

/-!
# Message schemas

A schema lists the fields of a message with their tags, and `Schema.Value` is the type of messages
that have these fields. Encoding and decoding are written once, over schemas.

A field that is always there is left out when it holds the default of its kind. An optional field is
written whenever it is set, so an unset field differs from one that is set to zero. Decoding starts
from the default message and takes in one record after the other: the last record of a plain field
counts, sub-messages are merged, repeated fields grow, and a record with an unknown tag is passed
over.
-/
namespace EmuControl.Wire

open EmuControl.Number

/-- Kinds of plain values. An enumeration is an `int32`, as unknown members may arrive. -/
inductive Scalar where
  | int32
  | bool
  | float
  | text
  | bytes
  deriving DecidableEq, Repr

namespace Scalar

abbrev Value : Scalar → Type
  | .int32 => Int32
  | .bool => Bool
  | .float => Binary32
  | .text => String
  | .bytes => Bytes

def default : (k : Scalar) → k.Value
  | .int32 => 0
  | .bool => false
  | .float => ⟨0⟩
  | .text => ""
  | .bytes => []

def isDefault : (k : Scalar) → k.Value → Bool
  | .int32, n => n == 0
  | .bool, b => b == false
  | .float, x => x == Binary32.mk 0
  | .text, s => s == ""
  | .bytes, b => b.isEmpty

/-- Integers are extended to 64 bits with their sign. -/
def payload : (k : Scalar) → k.Value → Payload
  | .int32, n => .varint n.toInt64.toUInt64
  | .bool, b => .varint (if b then 1 else 0)
  | .float, x => .fixed32 x.bits
  | .text, s => .delimited (Bytes.ofText s)
  | .bytes, b => .delimited b

/-- An integer takes the low 32 bits, and a truth value is any number but zero. -/
def ofPayload? : (k : Scalar) → Payload → Option k.Value
  | .int32, .varint n => some n.toUInt32.toInt32
  | .bool, .varint n => some (n != 0)
  | .float, .fixed32 n => some ⟨n⟩
  | .text, .delimited b => Bytes.toText? b
  | .bytes, .delimited b => some b
  | _, _ => none

end Scalar

/-- How often a plain field stands in a message. -/
inductive Presence where
  /-- Always, and left out on the wire when it holds the default. -/
  | always
  | optional
  | repeated
  deriving DecidableEq, Repr

abbrev Presence.Of : Presence → Type → Type
  | .always, α => α
  | .optional, α => Option α
  | .repeated, α => List α

/-- How often a sub-message stands in a message. -/
inductive Multiplicity where
  | optional
  | repeated
  deriving DecidableEq, Repr

abbrev Multiplicity.Of : Multiplicity → Type → Type
  | .optional, α => Option α
  | .repeated, α => List α

/-- The fields of a message in ascending order of their tags. -/
inductive Schema where
  | done
  | scalar (name : String) (tag : Nat) (presence : Presence) (kind : Scalar) (rest : Schema)
  | message (name : String) (tag : Nat) (multiplicity : Multiplicity) (body rest : Schema)
  /-- Entries from text to text. -/
  | textMap (name : String) (tag : Nat) (rest : Schema)
  /-- Entries from integers to messages. -/
  | messageMap (name : String) (tag : Nat) (body rest : Schema)
  deriving DecidableEq, Repr

namespace Schema

/-- The messages of a schema. -/
abbrev Value : Schema → Type
  | done => Unit
  | scalar _ _ presence kind rest => presence.Of kind.Value × rest.Value
  | message _ _ multiplicity body rest => multiplicity.Of body.Value × rest.Value
  | textMap _ _ rest => SortedMap String String × rest.Value
  | messageMap _ _ body rest => SortedMap Int32 body.Value × rest.Value

/-- The message in which nothing is set. -/
def default : (s : Schema) → s.Value
  | done => ()
  | scalar _ _ .always kind rest => (kind.default, rest.default)
  | scalar _ _ .optional _ rest => (none, rest.default)
  | scalar _ _ .repeated _ rest => ([], rest.default)
  | message _ _ .optional _ rest => (none, rest.default)
  | message _ _ .repeated _ rest => ([], rest.default)
  | textMap _ _ rest => (.empty, rest.default)
  | messageMap _ _ _ rest => (.empty, rest.default)

/-- The tags of the fields. -/
def tags : Schema → List Nat
  | done => []
  | scalar _ tag _ _ rest => tag :: rest.tags
  | message _ tag _ _ rest => tag :: rest.tags
  | textMap _ tag rest => tag :: rest.tags
  | messageMap _ tag _ rest => tag :: rest.tags

/-- The records of a plain field. -/
def scalarRecords (tag : Nat) (kind : Scalar) : (presence : Presence) →
    presence.Of kind.Value → List Record
  | .always, v => if kind.isDefault v then [] else [⟨tag, kind.payload v⟩]
  | .optional, none => []
  | .optional, some v => [⟨tag, kind.payload v⟩]
  | .repeated, vs => vs.map fun v => ⟨tag, kind.payload v⟩

/-- The records of a message, field by field. The default key of a map entry is left out like the
default of any field, and so is a message without content. -/
def records : (s : Schema) → s.Value → List Record
  | done, _ => []
  | scalar _ tag presence kind rest, (v, vs) => scalarRecords tag kind presence v ++ rest.records vs
  | message _ tag .optional body rest, (v, vs) =>
    (v.toList.map fun m => ⟨tag, .delimited (Record.encodeAll (body.records m))⟩) ++ rest.records vs
  | message _ tag .repeated body rest, (v, vs) =>
    (v.map fun m => ⟨tag, .delimited (Record.encodeAll (body.records m))⟩) ++ rest.records vs
  | textMap _ tag rest, (v, vs) =>
    (v.entries.map fun (key, value) =>
      ⟨tag, .delimited (Record.encodeAll
        (scalarRecords 1 .text .always key ++ scalarRecords 2 .text .always value))⟩) ++
      rest.records vs
  | messageMap _ tag body rest, (v, vs) =>
    (v.entries.map fun (key, value) =>
      let content := Record.encodeAll (body.records value)
      ⟨tag, .delimited (Record.encodeAll
        (scalarRecords 1 .int32 .always key ++
          if content.isEmpty then [] else [⟨2, .delimited content⟩]))⟩) ++
      rest.records vs

/-- Takes a record of a plain field in. -/
def absorbScalar (kind : Scalar) : (presence : Presence) → presence.Of kind.Value → Payload →
    Option (presence.Of kind.Value)
  | .always, _, p => kind.ofPayload? p
  | .optional, _, p => (kind.ofPayload? p).map some
  | .repeated, vs, p => (kind.ofPayload? p).map fun v => vs ++ [v]

/-- The records inside a payload that holds a message. -/
def nested? (budget : Nat) : Payload → Option (List Record)
  | .delimited bytes => Record.parse budget bytes
  | _ => none

/-- Takes a record of a text-to-text entry in. -/
def absorbTextEntry (entry : String × String) (r : Record) : Option (String × String) :=
  if r.tag = 1 then (Scalar.text.ofPayload? r.payload).map fun k => (k, entry.2)
  else if r.tag = 2 then (Scalar.text.ofPayload? r.payload).map fun v => (entry.1, v)
  else some entry

/-- Takes one record into a message. -/
def absorb : (s : Schema) → (budget : Nat) → s.Value → Record → Option s.Value
  | done, _, v, _ => some v
  | scalar _ tag presence kind rest, budget, (v, vs), r =>
    if r.tag = tag then (absorbScalar kind presence v r.payload).map fun v => (v, vs)
    else (rest.absorb budget vs r).map fun vs => (v, vs)
  | message _ tag .optional body rest, budget, (v, vs), r =>
    if r.tag = tag then do
      let inner ← nested? (budget - 1) r.payload
      let m ← inner.foldlM (fun m r => body.absorb (budget - 1) m r) (v.getD body.default)
      some (some m, vs)
    else (rest.absorb budget vs r).map fun vs => (v, vs)
  | message _ tag .repeated body rest, budget, (v, vs), r =>
    if r.tag = tag then do
      let inner ← nested? (budget - 1) r.payload
      let m ← inner.foldlM (fun m r => body.absorb (budget - 1) m r) body.default
      some (v ++ [m], vs)
    else (rest.absorb budget vs r).map fun vs => (v, vs)
  | textMap _ tag rest, budget, (v, vs), r =>
    if r.tag = tag then do
      let inner ← nested? (budget - 1) r.payload
      let (key, value) ← inner.foldlM absorbTextEntry ("", "")
      some (v.insert key value, vs)
    else (rest.absorb budget vs r).map fun vs => (v, vs)
  | messageMap _ tag body rest, budget, (v, vs), r =>
    if r.tag = tag then do
      let inner ← nested? (budget - 1) r.payload
      let (key, value) ← inner.foldlM
        (fun (entry : Int32 × body.Value) r =>
          if r.tag = 1 then (Scalar.int32.ofPayload? r.payload).map fun k => (k, entry.2)
          else if r.tag = 2 then do
            let inner ← nested? (budget - 2) r.payload
            let m ← inner.foldlM (fun m r => body.absorb (budget - 2) m r) entry.2
            some (entry.1, m)
          else some entry)
        ((0 : Int32), body.default)
      some (v.insert key value, vs)
    else (rest.absorb budget vs r).map fun vs => (v, vs)

/-- How deep a message may be nested. -/
def nestingLimit : Nat := 100

def encode (s : Schema) (v : s.Value) : Bytes :=
  Record.encodeAll (s.records v)

def decode (s : Schema) (bytes : Bytes) : Option s.Value := do
  let rs ← Record.parse nestingLimit bytes
  rs.foldlM (s.absorb nestingLimit) s.default

end Schema

/-- A record type whose values are the messages of a schema. -/
class Message (α : Type) where
  schema : Schema
  fields : α → schema.Value
  ofFields : schema.Value → α
  ofFields_fields (a : α) : ofFields (fields a) = a

namespace Message

variable {α : Type} [Message α]

def encode (a : α) : Bytes :=
  (schema α).encode (fields a)

def decode? (bytes : Bytes) : Option α :=
  ((schema α).decode bytes).map ofFields

/-- The message in which nothing is set. -/
def default : α :=
  ofFields (schema α).default

@[simp]
theorem ofFields_comp_fields : (ofFields ∘ fields : α → α) = id :=
  funext ofFields_fields

@[simp]
theorem mapValues_ofFields_fields {κ : Type} [Ord κ] (m : SortedMap κ α) :
    (m.mapValues fun _ => fields).mapValues (fun _ => ofFields) = m := by
  apply SortedMap.ext
  simp [SortedMap.mapValues, Function.comp_def, ofFields_fields]

end Message

end EmuControl.Wire
