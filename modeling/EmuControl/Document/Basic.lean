import EmuControl.Number.Binary

/-!
# Documents

What a file in a structured text format says, free of the format: values, lists and tables. Tables
keep the order of their entries and may have a key twice, as formats differ in what they make of it.

A format may hold values that are well formed and yet stand for nothing, such as a number beyond all
ranges. They do no harm where nobody looks at them.
-/
namespace EmuControl

open EmuControl.Number

inductive Document where
  | null
  | bool (b : Bool)
  | integer (n : Int)
  | float (x : Binary64)
  | text (s : String)
  | list (items : List Document)
  /-- A key that is no text is `none`. -/
  | table (entries : List (Option String × Document))
  /-- A point in time. No record of this library has a field for one. -/
  | instant
  /-- Well formed, and without a meaning. -/
  | unreadable
  deriving Inhabited, Repr

namespace Document

/-- The entry of a key in a table, the last one if there are several. -/
def get? (key : String) : Document → Option Document
  | table entries => (entries.reverse.find? fun e => e.1 = some key).map (·.2)
  | _ => none

mutual

/-- Whether two documents say the same. Numbers are compared by value, so the two zeros are the same
and what is not a number is not even the same as itself. -/
def same : Document → Document → Bool
  | null, null => true
  | bool a, bool b => a = b
  | integer a, integer b => a = b
  | float a, float b => a.sameNumber b
  | text a, text b => a = b
  | list a, list b => sameItems a b
  | table a, table b => sameEntries a b
  | _, _ => false

def sameItems : List Document → List Document → Bool
  | [], [] => true
  | a :: as, b :: bs => same a b && sameItems as bs
  | _, _ => false

def sameEntries :
    List (Option String × Document) → List (Option String × Document) → Bool
  | [], [] => true
  | (k, a) :: as, (l, b) :: bs => k = l && same a b && sameEntries as bs
  | _, _ => false

end

end Document

end EmuControl
