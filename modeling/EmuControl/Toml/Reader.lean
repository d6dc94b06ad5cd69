import EmuControl.Document.Record
import EmuControl.Toml.Text
import EmuControl.Toml.Tree

/-!
# Reading TOML

A file is a sequence of lines: assignments, headers of tables and of arrays of tables, comments.
-/
namespace EmuControl.Toml

/-- Without the blanks at the head. -/
def skipIndent (cs : List Char) : List Char :=
  cs.dropWhile isIndent

/-- Without the comment at the head, if there is one. -/
def skipComment? : List Char → Option (List Char)
  | '#' :: rest =>
    let body := rest.takeWhile fun c => c != '\n'
    let after := rest.drop body.length
    -- A carriage return may stand only as a part of the line end.
    let body := if !after.isEmpty && body.getLast? = some '\r' then body.dropLast else body
    if body.any isForbidden then none
    else if after.isEmpty then some after
    else some (rest.drop body.length)
  | cs => some cs

/-- The rest behind the end of the line. -/
def lineEnd? : List Char → Option (List Char)
  | '\n' :: rest => some rest
  | '\r' :: '\n' :: rest => some rest
  | _ => none

/-- Without blanks, comments and line ends at the head. -/
def skipLines : (fuel : Nat) → List Char → Option (List Char)
  | 0, cs => some cs
  | fuel + 1, cs =>
    match skipComment? (skipIndent cs) with
    | none => none
    | some cs =>
      match lineEnd? cs with
      | none => some cs
      | some cs => skipLines fuel cs

/-- Characters of keys without quotes. -/
def isKeyChar (c : Char) : Bool :=
  c.isAlphanum || c = '_' || c = '-'

/-- One part of a key. -/
def keyPart? (cs : List Char) : Option (String × List Char) :=
  match cs with
  | '"' :: _ => lineString? cs
  | '\'' :: _ => lineString? cs
  | _ =>
    match cs.span isKeyChar with
    | ([], _) => none
    | (name, rest) => some (String.ofList name, rest)

/-- The parts of a key after the first one, up to what comes behind the key. -/
def moreKeyParts : (fuel : Nat) → List Char → Option (List String × List Char)
  | 0, _ => none
  | fuel + 1, cs =>
    match skipIndent cs with
    | '.' :: rest => do
      let (part, rest) ← keyPart? (skipIndent rest)
      let (parts, rest) ← moreKeyParts fuel rest
      some (part :: parts, rest)
    | cs => some ([], cs)

/-- A key as its leading parts and its last one, and what comes behind it. -/
def key? (cs : List Char) : Option ((List String × String) × List Char) := do
  let (first, rest) ← keyPart? cs
  let (parts, rest) ← moreKeyParts (rest.length + 1) rest
  match (first :: parts).reverse with
  | [] => none
  | last :: before => some ((before.reverse, last), rest)

/-- Reads a value, and gives the rest. -/
abbrev ValueReader := List Char → Option (Document × List Char)

/-- The items of an array up to its end, and the rest. -/
def arrayItems (value : ValueReader) :
    (fuel : Nat) → (before : List Document) → List Char → Option (Document × List Char)
  | 0, _, _ => none
  | fuel + 1, before, cs => do
    let cs ← skipLines (cs.length + 1) cs
    match cs with
    | ']' :: rest => some (.list before.reverse, rest)
    | cs =>
      let (d, cs) ← value cs
      let cs ← skipLines (cs.length + 1) cs
      match cs with
      | ',' :: rest => arrayItems value fuel (d :: before) rest
      | ']' :: rest => some (.list (d :: before).reverse, rest)
      | _ => none

/-- A key, an equals sign and a value. -/
def assignment? (value : ValueReader) (cs : List Char) :
    Option ((List String × String × Document) × List Char) := do
  let ((path, last), cs) ← key? cs
  match skipIndent cs with
  | '=' :: rest =>
    let (d, rest) ← value (skipIndent rest)
    some ((path, last, d), rest)
  | _ => none

/-- The entries of an inline table up to its end, and the rest. -/
def inlineEntries (value : ValueReader) :
    (fuel : Nat) → (before : Children) → List Char → Option (Document × List Char)
  | 0, _, _ => none
  | fuel + 1, before, cs => do
    let cs ← skipLines (cs.length + 1) cs
    match cs with
    | '\x7d' :: rest => some (.table (entries before), rest)
    | cs =>
      let ((path, last, d), cs) ← assignment? value cs
      let before ← before.assign path last d
      let cs ← skipLines (cs.length + 1) cs
      match cs with
      | ',' :: rest => inlineEntries value fuel before rest
      | '\x7d' :: rest => some (.table (entries before), rest)
      | _ => none

/-- A value in which arrays and inline tables are nested `depth` times at most. -/
def valueWithin : (depth : Nat) → ValueReader
  | 0, cs =>
    match cs with
    | [] => none
    | c :: _ =>
      if c = '"' || c = '\'' then (string? cs).map fun (s, rest) => (.text s, rest)
      else
        let (chars, rest) := takeScalar cs
        (scalar? chars).map fun d => (d, rest)
  | depth + 1, cs =>
    match cs with
    | '[' :: rest => arrayItems (valueWithin depth) (rest.length + 1) [] rest
    | '\x7b' :: rest => inlineEntries (valueWithin depth) (rest.length + 1) [] rest
    | cs => valueWithin 0 cs

/-- How deep arrays and inline tables may be nested. -/
def nestingLimit : Nat := 80

/-- A line of a file. -/
inductive Statement where
  | assign (path : List String) (key : String) (d : Document)
  | define (path : List String) (key : String)
  | extend (path : List String) (key : String)

/-- The statement at the head of the input, and the rest. -/
def statement? : List Char → Option (Statement × List Char)
  | '[' :: '[' :: rest => do
    let ((path, last), rest) ← key? (skipIndent rest)
    match rest with
    | ']' :: ']' :: rest => some (.extend path last, rest)
    | _ => none
  | '[' :: rest => do
    let ((path, last), rest) ← key? (skipIndent rest)
    match rest with
    | ']' :: rest => some (.define path last, rest)
    | _ => none
  | cs => do
    let ((path, last, d), rest) ← assignment? (valueWithin nestingLimit) cs
    some (.assign path last d, rest)

/-- The statements to the end of the input. Each one ends with its line. -/
def statements : (fuel : Nat) → (before : List Statement) → List Char → Option (List Statement)
  | 0, _, _ => none
  | fuel + 1, before, cs =>
    match skipLines (cs.length + 1) cs with
    | none => none
    | some [] => some before.reverse
    | some cs =>
      match statement? cs with
      | none => none
      | some (s, rest) =>
        match skipComment? (skipIndent rest) with
        | none => none
        | some [] => some (s :: before).reverse
        | some rest =>
          match lineEnd? rest with
          | none => none
          | some rest => statements fuel (s :: before) rest

/-- A file as far as it was read: its tables, and the table that assignments go to. -/
structure Sections where
  root : Children
  current : List String

/-- Changes the table that a path of headers leads to. -/
def within : List String → (Children → Option Children) → Children → Option Children
  | [], f, children => f children
  | key :: path, f, children =>
    children.alter key fun
      | some (.branch o inner) => (within path f inner).map (.branch o)
      | some (.series (last :: earlier)) =>
        (within path f last).map fun last => .series (last :: earlier)
      | _ => none

def Sections.apply (s : Sections) : Statement → Option Sections
  | .assign path key d =>
    (within s.current (·.assign path key d) s.root).map fun root => { s with root }
  | .define path key =>
    (s.root.define path key).map fun root => ⟨root, path ++ [key]⟩
  | .extend path key =>
    (s.root.extend path key).map fun root => ⟨root, path ++ [key]⟩

/-- The document that a text is. A byte order mark at its head is passed over. -/
def parse? (s : String) : Option Document := do
  let cs := match s.toList with
    | '\uFEFF' :: rest => rest
    | cs => cs
  let lines ← statements (cs.length + 1) [] cs
  let final ← lines.foldlM Sections.apply ⟨[], []⟩
  some (.table (entries final.root))

/-- An enumeration member may have an empty list or table beside its name, and a list for a record
may be too long. -/
def dialect : Dialect where
  isEmptyPayload
    | .list [] => true
    | .table [] => true
    | _ => false
  allowsSurplus := true

/-- Reads a value from a text. -/
def readText? {α : Type} [Readable α] (s : String) : Option α := do
  let d ← parse? s
  read dialect d

end EmuControl.Toml
