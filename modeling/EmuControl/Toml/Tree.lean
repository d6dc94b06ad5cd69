import EmuControl.Document.Basic

/-!
# Tables under construction

A file defines its tables piece by piece. A table may be implied by the header of a table below it
and be defined later, once. A table that comes from a dotted key can only be added to by dotted keys
of the same section. What was written as a value is closed.
-/
namespace EmuControl.Toml

/-- How a table came about. -/
inductive Origin where
  /-- By a header of its own. -/
  | defined
  /-- By a header of a table below it. -/
  | implied
  /-- By a dotted key. -/
  | dotted
  deriving DecidableEq, Repr

inductive Tree where
  | leaf (d : Document)
  | branch (origin : Origin) (children : List (String × Tree))
  /-- The tables of an array, last one first. -/
  | series (tables : List (List (String × Tree)))

/-- The content of a table. -/
abbrev Children := List (String × Tree)

namespace Children

/-- Changes what stands under a key, or adds it. -/
def alter (key : String) (f : Option Tree → Option Tree) : Children → Option Children
  | [] => (f none).map fun t => [(key, t)]
  | (k, t) :: rest =>
    if k = key then (f (some t)).map fun t => (k, t) :: rest
    else (alter key f rest).map fun rest => (k, t) :: rest

/-- Changes the table that a path leads to. An array of tables stands for its last table. Tables
that do not exist get the given origin; a dotted key does not lead through defined tables. -/
def descend (origin : Origin) : List String → (Children → Option Children) → Children →
    Option Children
  | [], f, children => f children
  | key :: path, f, children =>
    children.alter key fun
      | none => (descend origin path f []).map (.branch origin)
      | some (.leaf _) => none
      | some (.branch o inner) =>
        if origin = .dotted && o = .defined then none
        else (descend origin path f inner).map (.branch o)
      | some (.series (last :: earlier)) =>
        (descend origin path f last).map fun last => .series (last :: earlier)
      | some (.series []) => none

/-- Adds a value under a key that is free. -/
def insertNew (key : String) (d : Document) (children : Children) : Option Children :=
  children.alter key fun
    | none => some (.leaf d)
    | some _ => none

/-- Adds a value under a dotted key, given by its last part and the parts before. -/
def assign (path : List String) (key : String) (d : Document) (children : Children) :
    Option Children :=
  match path.reverse with
  | [] => children.insertNew key d
  | last :: before =>
    children.descend .dotted before.reverse fun inner =>
      inner.alter last fun
        | none => (insertNew key d []).map (.branch .dotted)
        | some (.branch .dotted inner) => (insertNew key d inner).map (.branch .dotted)
        | some _ => none

/-- Defines a table. -/
def define (path : List String) (key : String) (children : Children) : Option Children :=
  children.descend .implied path fun inner =>
    inner.alter key fun
      | none => some (.branch .defined [])
      | some (.branch .implied inner) => some (.branch .defined inner)
      | some _ => none

/-- Adds a table to an array of tables. -/
def extend (path : List String) (key : String) (children : Children) : Option Children :=
  children.descend .implied path fun inner =>
    inner.alter key fun
      | none => some (.series [[]])
      | some (.series tables) => some (.series ([] :: tables))
      | some _ => none

end Children

mutual

/-- The document that a tree stands for. -/
def Tree.toDocument : Tree → Document
  | .leaf d => d
  | .branch _ children => .table (entries children)
  | .series tables => .list (tableList [] tables)

/-- The entries of a table. -/
def entries : List (String × Tree) → List (Option String × Document)
  | [] => []
  | (k, t) :: rest => (some k, t.toDocument) :: entries rest

/-- The tables of an array in order, before those that follow. -/
def tableList (following : List Document) : List (List (String × Tree)) → List Document
  | [] => following
  | t :: rest => tableList (.table (entries t) :: following) rest

end

end EmuControl.Toml
