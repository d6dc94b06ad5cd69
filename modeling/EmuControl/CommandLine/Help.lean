import EmuControl.CommandLine.Arguments

/-!
# Help texts

The help on a command, or on all of them: how it is used, and a list of what can be given, each item
with its description in a second column.
-/
namespace EmuControl.CommandLine

/-- The name and version of the program. -/
def versionText : String := "netemu 0.1.0\n"

/-- Items with descriptions, in two columns. -/
def columns (items : List (String × String)) : String :=
  let width := (items.map fun i => i.1.length).foldl max 0
  String.join (items.map fun (name, description) =>
    "  " ++ name ++ String.ofList (List.replicate (width - name.length) ' ') ++ "  " ++
      description ++ "\n")

/-- A description with the few values that are possible. -/
def withChoices (description : String) (kind : ValueKind) : String :=
  match kind.choices with
  | [] => description
  | names =>
    (if description = "" then "" else description ++ " ") ++
      "[possible values: " ++ ", ".intercalate names ++ "]"

namespace OptionSpec

/-- The option with a place for its value. -/
def longForm (o : OptionSpec) : String :=
  match o.role with
  | .value _ label => "--" ++ o.long ++ " <" ++ label ++ ">"
  | _ => "--" ++ o.long

def item (o : OptionSpec) : String × String :=
  let short := match o.short with
    | some c => "-" ++ c.toString ++ ", "
    | none => "    "
  let description := match o.role with
    | .value kind _ => withChoices o.description kind
    | _ => o.description
  (short ++ o.longForm, description)

end OptionSpec

def PositionalSpec.item (p : PositionalSpec) : String × String :=
  ("<" ++ p.label ++ ">", withChoices p.description p.kind)

/-- What has to be given after the name of a command. -/
def CommandSpec.synopsis (c : CommandSpec) : String :=
  let options := (c.options.filter (·.isRequired)).map OptionSpec.longForm
  let positionals := c.positionals.map fun p => "<" ++ p.label ++ ">"
  String.join ((options ++ positionals).map (" " ++ ·))

/-- The part of a help text on arguments that are told by their place. -/
def placesText (places : List PositionalSpec) : String :=
  if places.isEmpty then "" else "Arguments:\n" ++ columns (places.map PositionalSpec.item) ++ "\n"

/-- The help on all commands. -/
def generalHelp : String :=
  let items := commands.map fun c => (c.name, c.description)
  "Drive CORE network emulation sessions over gRPC\n\n" ++
    "Usage: netemu [OPTIONS] <COMMAND>\n\n" ++
    "Commands:\n" ++
    columns (items ++ [("help", "Print this message or the help of the given subcommand(s)")]) ++
    "\nOptions:\n" ++ columns ((Scope.options ⟨none⟩).map OptionSpec.item)

/-- The help on a command. -/
def CommandSpec.help (c : CommandSpec) : String :=
  c.description ++ "\n\n" ++
    "Usage: netemu " ++ c.name ++ " [OPTIONS]" ++ c.synopsis ++ "\n\n" ++
    placesText c.positionals ++
    "Options:\n" ++ columns ((Scope.options ⟨some c⟩).map OptionSpec.item)

/-- The help that was asked for. -/
def helpText (topic : Option String) : String :=
  match topic.bind command? with
  | some c => c.help
  | none => generalHelp

/-- What is said to a user who made a mistake. -/
def usageText : String :=
  "error: unexpected or missing argument\n\n" ++
    "Usage: netemu [OPTIONS] <COMMAND>\n\nFor more information, try '--help'.\n"

/-- The output, the complaint and the exit status when arguments cannot be run. -/
def Stop.answer : Stop → String × String × Nat
  | usage => ("", usageText, 2)
  | nothing => ("", generalHelp, 2)
  | help topic => (helpText topic, "", 0)
  | version => (versionText, "", 0)

end EmuControl.CommandLine
