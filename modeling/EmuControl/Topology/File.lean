import EmuControl.Json.Reader
import EmuControl.Json.Writer
import EmuControl.Toml.Reader
import EmuControl.Toml.Writer
import EmuControl.Topology.Basic
import EmuControl.Workflow.Error

/-!
# Topology files

A topology is kept in a JSON file when the name of the file says so, and in a TOML file otherwise.
Only valid topologies are loaded.
-/
namespace EmuControl

inductive FileFormat where
  | toml
  | json
  deriving DecidableEq, Repr

namespace FileFormat

/-- The last component of a path, without slashes and single dots behind it. -/
def lastComponent (path : String) : List Char :=
  let parts := (path.toList.splitOn '/').filter fun p => p ≠ [] && p ≠ ['.']
  parts.getLast?.getD []

/-- What follows the last dot of the last component, if something stands before that dot. -/
def extension? (path : String) : Option (List Char) :=
  let name := lastComponent path
  let (tail, head) := name.reverse.span (· ≠ '.')
  match head with
  | _ :: _ :: _ => if name = ['.', '.'] then none else some tail.reverse
  | _ => none

/-- The format of a file with that name. Case does not matter. -/
def ofPath (path : String) : FileFormat :=
  if (extension? path).map (·.map Char.toLower) = some ['j', 's', 'o', 'n'] then .json else .toml

def parse? {α : Type} [Readable α] : FileFormat → String → Option α
  | toml, s => Toml.readText? s
  | json, s => Json.readText? s

def render {α : Type} [Writable α] : FileFormat → α → String
  | toml, a => Toml.pretty (write a)
  | json, a => Json.pretty (write a)

end FileFormat

namespace Topology

/-- Why a text is no topology when it does not even parse. -/
def unparsable : String := "not a topology"

/-- The topology that a text is. -/
def ofText (format : FileFormat) (text : String) : Except String Topology :=
  match format.parse? text with
  | none => .error unparsable
  | some (t : Topology) => t.validate.map fun _ => t

def load (path : String) : WorkflowM Topology := do
  let text ← Workflow.readTextFile path
  match ofText (.ofPath path) text with
  | .ok t => return t
  | .error reason => throw (.invalidFile path reason)

def save (t : Topology) (path : String) : WorkflowM Unit :=
  Workflow.writeFile path (.ofText ((FileFormat.ofPath path).render t))

end Topology

end EmuControl
