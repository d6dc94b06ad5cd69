import EmuControl.Document.Basic
import EmuControl.Number.Integer
import EmuControl.Text.Hex
import EmuControl.Wire.Schema

/-!
# Messages as documents

A view of messages for people and tests: a table of the fields by their names. Fields that are not
set are left out, floating-point numbers are given by their bits, and bytes are written in
hexadecimal. Reading such a table back takes the default for what is missing.
-/
namespace EmuControl.Wire

open EmuControl.Number EmuControl.Text

/-- The entries of a table. -/
abbrev Entries := List (Option String × EmuControl.Document)

/-- The value of a field, `null` if there is none. -/
def fieldOf (d : EmuControl.Document) (name : String) : EmuControl.Document :=
  (d.get? name).getD .null

namespace Scalar

/-- The bits of a floating-point number, marked as such. -/
def floatText (x : Binary32) : String :=
  "f32:" ++ writeHex 8 x.bits.toNat

def ofFloatText? (s : String) : Option Binary32 :=
  match s.toList with
  | 'f' :: '3' :: '2' :: ':' :: digits => (readHex? digits).map fun n => ⟨n.toUInt32⟩
  | _ => none

def view : (k : Scalar) → k.Value → EmuControl.Document
  | .int32, n => .integer n.toInt
  | .bool, b => .bool b
  | .float, x => .text (floatText x)
  | .text, s => .text s
  | .bytes, b => .text b.toHex

def ofView? : (k : Scalar) → EmuControl.Document → Option k.Value
  | .int32, .integer n => some (Int32.ofInt n)
  | .bool, .bool b => some b
  | .float, .text s => ofFloatText? s
  | .text, .text s => some s
  | .bytes, .text s => Bytes.ofHex? s
  | _, _ => none

end Scalar

namespace Schema

def scalarEntries (name : String) (kind : Scalar) : (p : Presence) → p.Of kind.Value → Entries
  | .always, v => [(some name, kind.view v)]
  | .optional, v => v.toList.map fun v => (some name, kind.view v)
  | .repeated, vs => [(some name, .list (vs.map kind.view))]

/-- The fields of a message by name. -/
def entries : (s : Schema) → s.Value → Entries
  | done, _ => []
  | scalar name _ presence kind rest, (v, vs) =>
    scalarEntries name kind presence v ++ rest.entries vs
  | message name _ .optional body rest, (v, vs) =>
    (v.toList.map fun m => (some name, .table (body.entries m))) ++ rest.entries vs
  | message name _ .repeated body rest, (v, vs) =>
    (some name, .list (v.map fun m => .table (body.entries m))) :: rest.entries vs
  | textMap name _ rest, (v, vs) =>
    (some name, .table (v.entries.map fun (k, s) => (some k, .text s))) :: rest.entries vs
  | messageMap name _ body rest, (v, vs) =>
    (some name, .table (v.entries.map fun (k, m) => (some (writeInt32 k), .table (body.entries m))))
      :: rest.entries vs

def view (s : Schema) (v : s.Value) : EmuControl.Document :=
  .table (s.entries v)

def scalarOfView (kind : Scalar) : (p : Presence) → EmuControl.Document → p.Of kind.Value
  | .always, d => (kind.ofView? d).getD kind.default
  | .optional, d => kind.ofView? d
  | .repeated, .list items => items.filterMap kind.ofView?
  | .repeated, _ => []

/-- The message that a table says. -/
def ofView : (s : Schema) → EmuControl.Document → s.Value
  | done, _ => ()
  | scalar name _ presence kind rest, d =>
    (scalarOfView kind presence (fieldOf d name), rest.ofView d)
  | message name _ .optional body rest, d =>
    let v := match fieldOf d name with
      | .null => none
      | inner => some (body.ofView inner)
    (v, rest.ofView d)
  | message name _ .repeated body rest, d =>
    let v := match fieldOf d name with
      | .list items => items.map body.ofView
      | _ => []
    (v, rest.ofView d)
  | textMap name _ rest, d =>
    let pairs := match fieldOf d name with
      | .table es => es.filterMap fun
        | (some k, .text s) => some (k, s)
        | _ => none
      | _ => []
    (SortedMap.ofList pairs, rest.ofView d)
  | messageMap name _ body rest, d =>
    let pairs := match fieldOf d name with
      | .table es => es.filterMap fun (k, m) =>
        (k.bind readInt32?).map fun k => (k, body.ofView m)
      | _ => []
    (SortedMap.ofList pairs, rest.ofView d)

end Schema

namespace Message

variable {α : Type} [Message α]

/-- The fields of a message by name. -/
def view (a : α) : EmuControl.Document :=
  (schema α).view (fields a)

/-- The message that a table says. -/
def ofView (d : EmuControl.Document) : α :=
  ofFields ((schema α).ofView d)

end Message

end EmuControl.Wire
