import EmuControl.Model.Configuration
import EmuControl.Number.Integer
import EmuControl.Order.SortedMap

/-!
# Option values

The daemon hands options out in groups and takes them back as a flat map from names to text. A group
counts only by its options: what a later one says about a name replaces what was said before.

Once the kind of an option is known its value is text or an integer.
-/
namespace EmuControl

open EmuControl.Number

/-- Options by name, as the daemon takes them. -/
abbrev OptionMap := SortedMap String String

/-- The values of options by their names; the last option of a name counts. -/
def flattenOptions (options : List ConfigOption) : OptionMap :=
  SortedMap.ofList (options.map fun o => (o.name, o.value))

/-- The values of all groups together; the last group that has a name counts. -/
def flattenGroups (groups : List ConfigGroup) : OptionMap :=
  groups.foldl (fun m g => m.insertAll (flattenOptions g.options).entries) .empty

inductive OptionValue where
  | text (s : String)
  | integer (n : Int64)
  deriving DecidableEq, Repr

namespace OptionValue

/-- The value as the daemon takes it. -/
def render : OptionValue → String
  | text s => s
  | integer n => writeInt64 n

end OptionValue

/-- Values of options by name. -/
abbrev OptionValues := SortedMap String OptionValue

namespace OptionValues

/-- The value of a name, if it is text. -/
def text? (values : OptionValues) (name : String) : Option String :=
  match values.get? name with
  | some (.text s) => some s
  | _ => none

/-- The value of a name, if it is an integer. -/
def integer? (values : OptionValues) (name : String) : Option Int64 :=
  match values.get? name with
  | some (.integer n) => some n
  | _ => none

/-- Sets or removes a text. -/
def setText (values : OptionValues) (name : String) : Option String → OptionValues
  | some s => values.insert name (.text s)
  | none => values.erase name

/-- Sets or removes an integer. -/
def setInteger (values : OptionValues) (name : String) : Option Int64 → OptionValues
  | some n => values.insert name (.integer n)
  | none => values.erase name

end OptionValues

end EmuControl
