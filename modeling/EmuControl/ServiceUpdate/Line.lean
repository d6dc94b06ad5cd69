import EmuControl.Text.Blank
import EmuControl.Text.Search

/-!
# Updating a line of a service definition

Service definitions for older daemons need a few changes to load on current ones. Attributes lose
their leading underscore, `dirs` becomes `directories`, every import of the service class names the
one module that it is in now, and four callbacks have new signatures. Lines are dropped when they
register a service or import a module for addresses.

The changes are made in this order, each at its first place in the line, and what is left decides
whether the line is dropped.
-/
namespace EmuControl.ServiceUpdate

open EmuControl.Text

def isLowerLetter (c : Char) : Bool :=
  'a' ≤ c && c ≤ 'z'

/-- The blanks at the head of a line, and the rest. -/
def splitIndent (cs : List Char) : List Char × List Char :=
  (cs.takeWhile isBlank, cs.dropWhile isBlank)

/-- An indented underscore before a lower-case letter is taken away. -/
def updateAttribute (cs : List Char) : List Char :=
  match splitIndent cs with
  | (b :: indent, '_' :: c :: rest) =>
    if isLowerLetter c then (b :: indent) ++ c :: rest else cs
  | _ => cs

/-- An indented line that begins with `dirs` begins with `directories`. -/
def updateDirectories (cs : List Char) : List Char :=
  match splitIndent cs with
  | (b :: indent, rest) =>
    match after? "dirs".toList rest with
    | some rest => (b :: indent) ++ "directories".toList ++ rest
    | none => cs
  | _ => cs

/-- The import of the service class. -/
def serviceImport : List Char :=
  "from core.services.coreservices import CoreService".toList

/-- Whether a line imports the service class: the words `import` and `CoreService` stand in it, and
something stands before, between and behind them. -/
def isServiceImport (cs : List Char) : Bool :=
  !cs.contains '\n' &&
    (((afterGap? "import".toList cs).bind (afterGap? "CoreService".toList)).any (!·.isEmpty))

def updateImport (cs : List Char) : List Char :=
  if isServiceImport cs then serviceImport else cs

/-- The signatures of callbacks, and what they are now. -/
def signatures : List (List Char × List Char) :=
  [("def generateconfig(cls, node, filename, services)".toList,
    "def generate_config(cls, node, filename)".toList),
   ("def getvalidate(cls, node, services)".toList, "def get_validate(cls, node)".toList),
   ("def getstartup(cls, node, services)".toList, "def get_startup(cls, node)".toList),
   ("def getconfigfilenames(cls, nodenum, services)".toList,
    "def get_configs(cls, node)".toList)]

def updateSignatures (cs : List Char) : List Char :=
  signatures.foldl (fun cs s => replaceFirst s.1 s.2 cs) cs

/-- Whether a line registers a service. -/
def registersService (cs : List Char) : Bool :=
  occurs "addservice(".toList cs

/-- Whether a line imports a module whose name begins with the given one, or something from a
submodule of that name. -/
def importsModule (name : List Char) (cs : List Char) : Bool :=
  somewhere (fun cs =>
    match after? "from".toList cs with
    | some rest => (afterGap? ('.' :: name) (rest.takeWhile (· != '\n'))).isSome
    | none => false) cs ||
  occurs ("import ".toList ++ name) cs

def isDropped (cs : List Char) : Bool :=
  registersService cs || importsModule "ipaddr".toList cs || importsModule "ipaddress".toList cs

/-- A line with all changes made, before it is decided whether the line stays. -/
def changeLine (cs : List Char) : List Char :=
  updateSignatures (updateImport (updateDirectories (updateAttribute cs)))

/-- The updated line, unless the line is dropped. The line has no terminator. -/
def updateLine (cs : List Char) : Option (List Char) :=
  if isDropped (changeLine cs) then none else some (changeLine cs)

end EmuControl.ServiceUpdate
