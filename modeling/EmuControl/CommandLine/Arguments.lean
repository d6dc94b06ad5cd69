import EmuControl.CommandLine.Grammar

/-!
# Reading arguments

Arguments are read from left to right. An option may be given in its long form with the value behind
an equals sign or in the next argument, or in its short form, in which several options may share one
dash. Each option may be given once before the command and once after it. After `--` all arguments
are values. The first request for help or for the version ends the reading, as does the first
mistake.
-/
namespace EmuControl.CommandLine

/-- What ends the reading of arguments. -/
inductive Stop where
  /-- A mistake of the user. -/
  | usage
  /-- There are no arguments at all. -/
  | nothing
  /-- A request for help on a command, or on all. -/
  | help (command : Option String)
  | version
  deriving DecidableEq, Repr

/-- What has been given so far. -/
structure Matches where
  /-- Options by their long names; a flag has an empty value. -/
  options : List (String × String) := []
  positionals : List String := []
  deriving DecidableEq, Repr

namespace Matches

def value? (m : Matches) (long : String) : Option String :=
  (m.options.find? fun o => o.1 = long).map (·.2)

def has (m : Matches) (long : String) : Bool :=
  (m.value? long).isSome

/-- Adds an option, which must not be there yet. -/
def addOption (m : Matches) (o : OptionSpec) (value : String) : Except Stop Matches :=
  let isGood := match o.role with
    | .value kind _ => kind.accepts value
    | _ => true
  if m.has o.long || !isGood then .error .usage
  else .ok { m with options := m.options ++ [(o.long, value)] }

end Matches

/-- What may be given at one place: before the command, or after it. -/
structure Scope where
  /-- The command after which it is. -/
  command : Option CommandSpec

namespace Scope

def options (s : Scope) : List OptionSpec :=
  match s.command with
  | none => sharedOptions ++ [helpOption, versionOption]
  | some c => c.options ++ sharedOptions ++ [helpOption]

def positionals (s : Scope) : List PositionalSpec :=
  match s.command with
  | none => []
  | some c => c.positionals

def long? (s : Scope) (name : String) : Option OptionSpec :=
  s.options.find? fun o => o.long = name

def short? (s : Scope) (c : Char) : Option OptionSpec :=
  s.options.find? fun o => o.short = some c

/-- Adds the value of the next place. -/
def addPositional (s : Scope) (m : Matches) (value : String) : Except Stop Matches :=
  match s.positionals[m.positionals.length]? with
  | none => .error .usage
  | some p =>
    if p.kind.accepts value then .ok { m with positionals := m.positionals ++ [value] }
    else .error .usage

/-- An option that is given without a value. It may be waiting for one. -/
def give (s : Scope) (m : Matches) (o : OptionSpec) :
    Except Stop (Matches × Option OptionSpec) :=
  match o.role with
  | .help => .error (.help (s.command.map (·.name)))
  | .version => .error .version
  | .flag => (m.addOption o "").map fun m => (m, none)
  | .value _ _ => .ok (m, some o)

/-- An argument that begins with two dashes. -/
def readLong (s : Scope) (m : Matches) (body : List Char) :
    Except Stop (Matches × Option OptionSpec) :=
  let name := String.ofList (body.takeWhile (· ≠ '='))
  match s.long? name, body.dropWhile (· ≠ '=') with
  | none, _ => .error .usage
  | some o, [] => s.give m o
  | some o, _ :: value =>
    match o.role with
    | .value _ _ => (m.addOption o (String.ofList value)).map fun m => (m, none)
    | _ => .error .usage

/-- The options that share one dash. -/
def readShort (s : Scope) (m : Matches) : List Char → Except Stop (Matches × Option OptionSpec)
  | [] => .ok (m, none)
  | c :: rest =>
    match s.short? c with
    | none => .error .usage
    | some o =>
      match o.role, rest with
      | .value _ _, [] => .ok (m, some o)
      | .value _ _, '=' :: value => (m.addOption o (String.ofList value)).map fun m => (m, none)
      | .value _ _, value => (m.addOption o (String.ofList value)).map fun m => (m, none)
      | _, _ => do
        let (m, _) ← s.give m o
        s.readShort m rest

/-- Whether all that a command needs is given. -/
def isComplete (s : Scope) (m : Matches) : Bool :=
  m.positionals.length = s.positionals.length &&
    s.options.all fun o => !o.isRequired || m.has o.long

/-- Values only, up to the end. -/
def readValues (s : Scope) (m : Matches) : List String → Except Stop Matches
  | [] => .ok m
  | value :: rest => do
    let m ← s.addPositional m value
    s.readValues m rest

end Scope

/-- What was read up to a command, or up to the end. -/
structure Reading where
  found : Matches
  /-- The command and the arguments after it. -/
  next : Option (CommandSpec × List String)

/-- The command that help is asked for. -/
def helpTopic : List String → Stop
  | [] => .help none
  | ["help"] => .help none
  | [name] => if (command? name).isSome then .help (some name) else .usage
  | _ => .usage

/-- Reads arguments. `waiting` is an option that waits for its value. -/
def readArguments (s : Scope) (waiting : Option OptionSpec) (m : Matches) :
    List String → Except Stop Reading
  | [] => if waiting.isSome then .error .usage else .ok ⟨m, none⟩
  | arg :: rest =>
    match waiting, arg.toList with
    | none, ['-', '-'] => (s.readValues m rest).map fun m => ⟨m, none⟩
    | some _, ['-', '-'] => .error .usage
    | none, '-' :: '-' :: body => do
      let (m, waiting) ← s.readLong m body
      readArguments s waiting m rest
    | some _, '-' :: '-' :: _ => .error .usage
    | none, '-' :: c :: body => do
      let (m, waiting) ← s.readShort m (c :: body)
      readArguments s waiting m rest
    | some _, '-' :: _ :: _ => .error .usage
    | some o, _ => do
      let m ← m.addOption o arg
      readArguments s none m rest
    | none, _ =>
      match s.command with
      | some _ => do
        let m ← s.addPositional m arg
        readArguments s none m rest
      | none =>
        if arg = "help" then .error (helpTopic rest)
        else match command? arg with
          | some c => .ok ⟨m, some (c, rest)⟩
          | none => .error .usage

/-- All that was given: the command, and the options before and after its name. -/
structure Given where
  command : CommandSpec
  before : Matches
  after : Matches

/-- Reads a command line. -/
def readLine (args : List String) : Except Stop Given := do
  let outer ← readArguments ⟨none⟩ none {} args
  match outer.next with
  | none => .error (if outer.found.options.isEmpty then .nothing else .usage)
  | some (c, rest) =>
    let scope : Scope := ⟨some c⟩
    let inner ← readArguments scope none {} rest
    if scope.isComplete inner.found then .ok ⟨c, outer.found, inner.found⟩ else .error .usage

end EmuControl.CommandLine
