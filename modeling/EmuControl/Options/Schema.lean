import EmuControl.Mapping.Error
import EmuControl.Options.Values

/-!
# Option schemas

A domain of configuration is described by the names it reserves and by the kind of each. A closed
domain passes over all other names. An open one keeps them as text, for domains whose names depend
on the daemon.

`extract` reads a flat map, and `render` writes one.
-/
namespace EmuControl

open EmuControl.Number EmuControl.Text

inductive ValueKind where
  | text
  | integer
  deriving DecidableEq, Repr

/-- A reserved name. -/
structure OptionKey where
  name : String
  kind : ValueKind
  deriving DecidableEq, Repr

structure OptionSchema where
  domain : String
  keys : List OptionKey
  isOpen : Bool
  deriving DecidableEq, Repr

namespace OptionSchema

/-- The first reserved key of a name. -/
def key? (s : OptionSchema) (name : String) : Option OptionKey :=
  s.keys.find? fun k => k.name = name

/-- What the schema makes of one option, if it keeps the option. A reserved integer that is none is
an error and never a default. -/
def read (s : OptionSchema) (name raw : String) : Mapped (Option OptionValue) :=
  match s.key? name with
  | some ⟨_, .integer⟩ =>
    match readInt64? (trim raw) with
    | some n => .ok (some (.integer n))
    | none => .error (.invalidNumber (s.domain ++ "." ++ name) raw)
  | some ⟨_, .text⟩ => .ok (some (.text raw))
  | none => .ok (if s.isOpen then some (.text raw) else none)

/-- Takes one option in. -/
def take (s : OptionSchema) (values : OptionValues) (option : String × String) :
    Mapped OptionValues := do
  match ← s.read option.1 option.2 with
  | some v => return values.insert option.1 v
  | none => return values

/-- The values of a flat map. Names are taken in ascending order, and the first bad one is the
error. -/
def extract (s : OptionSchema) (m : OptionMap) : Mapped OptionValues :=
  m.entries.foldlM s.take .empty

/-- Whether a name goes to the daemon. -/
def admits (s : OptionSchema) (name : String) : Bool :=
  s.isOpen || (s.key? name).isSome

/-- The flat map of values. -/
def render (s : OptionSchema) (values : OptionValues) : OptionMap :=
  (values.filter fun name _ => s.admits name).mapValues fun _ v => v.render

/-- Options as this domain sends them. -/
def encodeOptions (s : OptionSchema) (options : List ConfigOption) : Mapped OptionMap := do
  let values ← s.extract (flattenOptions options)
  return s.render values

def wlan : OptionSchema where
  domain := "wlan"
  keys :=
    [⟨"bandwidth", .text⟩, ⟨"delay", .text⟩, ⟨"error", .text⟩, ⟨"jitter", .text⟩, ⟨"range", .text⟩]
  isOpen := false

def mobility : OptionSchema where
  domain := "mobility"
  keys :=
    [⟨"file", .text⟩, ⟨"refresh_ms", .integer⟩, ⟨"autostart", .text⟩, ⟨"loop", .text⟩,
     ⟨"map", .text⟩, ⟨"script_pause", .text⟩, ⟨"script_start", .text⟩, ⟨"script_stop", .text⟩]
  isOpen := false

def emane : OptionSchema where
  domain := "emane"
  keys := []
  isOpen := true

def emaneModel : OptionSchema where
  domain := "emane_model"
  keys := []
  isOpen := true

def session : OptionSchema where
  domain := "session"
  keys := []
  isOpen := true

end OptionSchema

end EmuControl
