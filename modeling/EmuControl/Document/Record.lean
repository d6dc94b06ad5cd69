import EmuControl.Document.Basic
import EmuControl.Order.SortedMap

/-!
# Records in documents

A record stands in a document as a table of its fields, or as a list of their values in order.
Unknown keys of a table are passed over, and a known key may stand there only once. A field may be
required, may be open, or may have a default; an open field without a default must not be missing in
a list.

A member of an enumeration stands there by its name, or as a table with that name as its only key.
-/
namespace EmuControl

open EmuControl.Number

/-- In what formats differ. -/
structure Dialect where
  /-- What may stand beside the name of an enumeration member. -/
  isEmptyPayload : Document → Bool
  /-- Whether a list may go on after the last field of a record. -/
  allowsSurplus : Bool

/-- What a document says about a field. -/
inductive Slot where
  | given (d : Document)
  /-- A table has no such key. -/
  | keyMissing
  /-- A list is too short. -/
  | itemMissing

/-- Reads one field after the other. -/
abbrev FieldReader := StateT (List Slot) Option

namespace FieldReader

variable {α : Type}

/-- What is said about the next field. -/
def next : FieldReader Slot := fun
  | [] => none
  | s :: rest => some (s, rest)

/-- A field that must be given. -/
def required (read : Document → Option α) : FieldReader α := do
  match ← next with
  | .given d => StateT.lift (read d)
  | _ => failure

/-- A field with a default. -/
def defaulted (value : α) (read : Document → Option α) : FieldReader α := do
  match ← next with
  | .given d => StateT.lift (read d)
  | _ => pure value

/-- A value or `null`. -/
def nullable (read : Document → Option α) : Document → Option (Option α)
  | .null => some none
  | d => (read d).map some

/-- A field that may be open. -/
def optional (read : Document → Option α) : FieldReader (Option α) :=
  defaulted none (nullable read)

/-- A field that may be open but needs its place in a list. -/
def placed (read : Document → Option α) : FieldReader (Option α) := do
  match ← next with
  | .given d => StateT.lift (nullable read d)
  | .keyMissing => pure none
  | .itemMissing => failure

end FieldReader

/-- What the values of a list say about fields. -/
def itemSlots : List String → List Document → List Slot
  | [], _ => []
  | _ :: names, [] => .itemMissing :: itemSlots names []
  | _ :: names, d :: ds => .given d :: itemSlots names ds

/-- What the entries of a table say about a field; a field may not be given twice. -/
def entrySlot (entries : List (Option String × Document)) (name : String) : Option Slot :=
  match entries.filter fun e => e.1 = some name with
  | [] => some .keyMissing
  | [e] => some (.given e.2)
  | _ => none

/-- What a document says about the fields of a record. -/
def slots (dialect : Dialect) (names : List String) : Document → Option (List Slot)
  | .table entries =>
    if entries.all fun e => e.1.isSome then names.mapM (entrySlot entries) else none
  | .list items =>
    if items.length ≤ names.length || dialect.allowsSurplus then some (itemSlots names items)
    else none
  | .instant => some (names.map fun _ => .keyMissing)
  | _ => none

/-- Reads a record by its fields. -/
def readRecord {α : Type} (names : List String) (reader : FieldReader α) (dialect : Dialect)
    (d : Document) : Option α := do
  let given ← slots dialect names d
  let (a, _) ← reader.run given
  some a

/-- Types whose values are read from documents. -/
class Readable (α : Type) where
  read : Dialect → Document → Option α

/-- Types whose values are written to documents. -/
class Writable (α : Type) where
  write : α → Document

export Readable (read)
export Writable (write)

section Values

variable {α : Type}

instance : Readable Bool where
  read
    | _, .bool b => some b
    | _, _ => none

instance : Readable String where
  read
    | _, .text s => some s
    | _, _ => none

/-- An integer within a range. -/
def readInteger (lo hi : Int) : Document → Option Int
  | .integer n => if lo ≤ n ∧ n ≤ hi then some n else none
  | _ => none

instance : Readable Int32 where
  read _ d := (readInteger (-2147483648) 2147483647 d).map Int32.ofInt

instance : Readable Int64 where
  read _ d := (readInteger (-9223372036854775808) 9223372036854775807 d).map Int64.ofInt

instance : Readable UInt16 where
  read _ d := (readInteger 0 65535 d).map fun n => n.toNat.toUInt16

/-- Integers of 64 bits may stand for floating-point numbers. -/
instance : Readable Binary64 where
  read
    | _, .float x => some x
    | _, d => (readInteger (-9223372036854775808) 18446744073709551615 d).map Binary64.ofInt

instance [Readable α] : Readable (List α) where
  read
    | dialect, .list items => items.mapM (read dialect)
    | _, _ => none

instance : Readable (SortedSet String) where
  read dialect d := (read dialect d).map fun (names : List String) => SortedSet.ofList names

/-- A table of values; of two entries with one key the later one counts. -/
instance [Readable α] : Readable (SortedMap String α) where
  read
    | dialect, .table entries => do
      let pairs ← entries.mapM fun e => do
        let key ← e.1
        let value ← read dialect e.2
        some (key, value)
      some (SortedMap.ofList pairs)
    | _, _ => none

/-- The member of an enumeration that has a name. -/
def readMember (all : List α) (name : α → String) (dialect : Dialect) : Document → Option α
  | .text s => all.find? fun a => name a = s
  | .table [(some s, payload)] =>
    if dialect.isEmptyPayload payload then all.find? fun a => name a = s else none
  | _ => none

instance : Writable Bool := ⟨.bool⟩
instance : Writable String := ⟨.text⟩
instance : Writable Int32 := ⟨fun n => .integer n.toInt⟩
instance : Writable Int64 := ⟨fun n => .integer n.toInt⟩
instance : Writable UInt16 := ⟨fun n => .integer n.toNat⟩
instance : Writable Binary64 := ⟨.float⟩
instance [Writable α] : Writable (List α) := ⟨fun items => .list (items.map write)⟩
instance : Writable (SortedSet String) := ⟨fun s => .list ((SortedSet.toList s).map .text)⟩

instance [Writable α] : Writable (SortedMap String α) :=
  ⟨fun m => .table (m.entries.map fun e => (some e.1, write e.2))⟩

/-- An open value is `null`. -/
instance [Writable α] : Writable (Option α) where
  write
    | none => .null
    | some a => write a

end Values

section Fields

variable {α : Type} [Writable α]

/-- A field that is always written. -/
def field (name : String) (a : α) : List (Option String × Document) :=
  [(some name, write a)]

/-- A field that is left out when it is open. -/
def openField (name : String) : Option α → List (Option String × Document)
  | none => []
  | some a => field name a

end Fields

end EmuControl
