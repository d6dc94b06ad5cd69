import EmuControl.Number.Integer
import EmuControl.Text.Quoted

/-!
# Values that cannot be mapped

Why a value of the wire has no counterpart in the model, or the other way round.
-/
namespace EmuControl

open EmuControl.Number EmuControl.Text

inductive MappingError where
  /-- An enumeration has no such member. -/
  | unknownMember (enumeration : String) (value : Int32)
  /-- A text that ought to hold an integer does not. -/
  | invalidNumber (key value : String)
  /-- Bytes that ought to be text are not. -/
  | invalidText (what : String)
  deriving DecidableEq, Repr

namespace MappingError

def message : MappingError → String
  | unknownMember enumeration value => s!"Unknown {enumeration} value: " ++ writeInt32 value
  | invalidNumber key value => s!"Invalid number for `{key}`: " ++ quote value
  | invalidText what => s!"{what} is not valid UTF-8"

end MappingError

/-- The result of a mapping. -/
abbrev Mapped := Except MappingError

namespace Mapped

/-- The integer that a text holds between blanks. -/
def int32 (key text : String) : Mapped Int32 :=
  match readInt32? (trim text) with
  | some n => .ok n
  | none => .error (.invalidNumber key text)

/-- The member of an enumeration that has a number. -/
def member {α : Type} (enumeration : String) (all : List α) (number : α → Int32) (n : Int32) :
    Mapped α :=
  match all.find? fun a => number a = n with
  | some a => .ok a
  | none => .error (.unknownMember enumeration n)

/-- The mapping of a part that may be left open. -/
def option {α β : Type} (f : α → Mapped β) : Option α → Mapped (Option β)
  | none => .ok none
  | some a => (f a).map some

end Mapped

end EmuControl
