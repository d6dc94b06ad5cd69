import EmuControl.Document.Record
import EmuControl.Json.Token

/-!
# Reading JSON

Tokens are fed to a machine that keeps the lists and tables that are still open. Values may be
nested to any depth.
-/
namespace EmuControl.Json

/-- A list or table that is still open, its content last one first. -/
inductive Frame where
  | list (items : List Document)
  | table (entries : List (Option String × Document))
  /-- A table that waits for the value of a key. -/
  | entry (entries : List (Option String × Document)) (key : Option String)

/-- What may come next. -/
inductive Expectation where
  | value
  /-- A list was opened. -/
  | valueOrEnd
  /-- A table was opened. -/
  | keyOrEnd
  | key
  | colon
  /-- A value inside of something is complete. -/
  | commaOrEnd
  /-- The outermost value is complete. -/
  | nothing (d : Document)

structure State where
  frames : List Frame
  expectation : Expectation

/-- A value is complete. -/
def State.complete (frames : List Frame) (d : Document) : Option State :=
  match frames with
  | [] => some ⟨[], .nothing d⟩
  | .list items :: outer => some ⟨.list (d :: items) :: outer, .commaOrEnd⟩
  | .entry entries key :: outer => some ⟨.table ((key, d) :: entries) :: outer, .commaOrEnd⟩
  | .table _ :: _ => none

/-- A value begins. -/
def State.begin (frames : List Frame) : Token → Option State
  | .beginList => some ⟨.list [] :: frames, .valueOrEnd⟩
  | .beginTable => some ⟨.table [] :: frames, .keyOrEnd⟩
  | .null => complete frames .null
  | .bool b => complete frames (.bool b)
  | .number n => complete frames n.value
  | .text (some s) => complete frames (.text s)
  | .text none => complete frames .unreadable
  | _ => none

/-- The innermost list or table ends. -/
def State.close : List Frame → Token → Option State
  | .list items :: outer, .endList => complete outer (.list items.reverse)
  | .table entries :: outer, .endTable => complete outer (.table entries.reverse)
  | _, _ => none

/-- A key begins an entry. -/
def State.openEntry : List Frame → Token → Option State
  | .table entries :: outer, .text key => some ⟨.entry entries key :: outer, .colon⟩
  | _, _ => none

def State.step (s : State) (t : Token) : Option State :=
  match s.expectation, t with
  | .value, t => begin s.frames t
  | .valueOrEnd, .endList => close s.frames .endList
  | .valueOrEnd, t => begin s.frames t
  | .keyOrEnd, .endTable => close s.frames .endTable
  | .keyOrEnd, t => openEntry s.frames t
  | .key, t => openEntry s.frames t
  | .colon, .colon => some ⟨s.frames, .value⟩
  | .colon, _ => none
  | .commaOrEnd, .comma =>
    match s.frames with
    | .list _ :: _ => some ⟨s.frames, .value⟩
    | .table _ :: _ => some ⟨s.frames, .key⟩
    | _ => none
  | .commaOrEnd, t => close s.frames t
  | .nothing _, _ => none

def State.run : State → List Token → Option State
  | s, [] => some s
  | s, t :: rest =>
    match s.step t with
    | none => none
    | some s => s.run rest

/-- The document that a text is. -/
def parse? (s : String) : Option Document := do
  let tokens ← tokens? s
  let final ← State.run ⟨[], .value⟩ tokens
  match final.expectation with
  | .nothing d => some d
  | _ => none

/-- An enumeration member may have `null` beside its name, and a list for a record may not be too
long. -/
def dialect : Dialect where
  isEmptyPayload
    | .null => true
    | _ => false
  allowsSurplus := false

/-- Reads a value from a text. -/
def readText? {α : Type} [Readable α] (s : String) : Option α := do
  let d ← parse? s
  read dialect d

end EmuControl.Json
