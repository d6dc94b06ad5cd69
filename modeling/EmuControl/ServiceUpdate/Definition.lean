import EmuControl.ServiceUpdate.Line
import EmuControl.Text.Line
import EmuControl.Workflow.Error

/-!
# Updating a service definition

A definition is updated line by line. Lines keep their terminators, and the updated definition is
written beside the file that it came from.
-/
namespace EmuControl.ServiceUpdate

open EmuControl.Text

/-- The updated line with its terminator, or nothing. -/
def updateWhole (l : Line) : List Char :=
  match updateLine l.body with
  | some body => body ++ l.terminator
  | none => []

def update (cs : List Char) : List Char :=
  (lines cs).flatMap updateWhole

def updateText (s : String) : String :=
  String.ofList (update s.toList)

/-- Updates a file, and gives the name of the new one. -/
def updateFile (path : String) : WorkflowM String := do
  let text ← Workflow.readTextFile path
  let target := path ++ ".update"
  Workflow.writeFile target (.ofText (updateText text))
  ExceptT.lift (Program.log .debug .serviceUpdate ("Wrote updated service to " ++ target))
  return target

end EmuControl.ServiceUpdate
