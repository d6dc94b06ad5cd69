import EmuControl.Document.Basic
import EmuControl.Number.Decimal
import EmuControl.Number.Integer
import EmuControl.Text.Quoted

/-!
# Writing TOML

The plain values of a table come first, one on each line. Its tables and lists of tables follow,
each one under a header with an empty line before it. Entries without a value are left out.

A string is written in the first form that can hold it with little escaping, so that a text reads in
a file the way it is.
-/
namespace EmuControl.Toml

open EmuControl.Number

/-- Control characters that need an escape in every form of a string. -/
def isControl (c : Char) : Bool :=
  (c.toNat < 0x20 && c != '\t' && c != '\n') || c.toNat = 0x7F

/-- Whether three times the same character stand somewhere in a row. -/
def hasTriple (q : Char) : List Char → Bool
  | a :: b :: c :: rest => (a = q && b = q && c = q) || hasTriple q (b :: c :: rest)
  | _ => false

/-- The forms of a string. -/
inductive StringForm where
  | basic
  | literal
  | multilineBasic
  | multilineLiteral
  deriving DecidableEq, Repr

/-- The form that a text is written in. -/
def stringForm (cs : List Char) : StringForm :=
  let controlled := cs.any isControl
  if !controlled && !cs.any (fun c => c = '\\' || c = '"' || c = '\n') then .basic
  else if !controlled && !cs.any (fun c => c = '\'' || c = '\n') then .literal
  else if !controlled && !cs.contains '\\' && !hasTriple '"' cs then .multilineBasic
  else if !controlled && !hasTriple '\'' cs then .multilineLiteral
  else if cs.contains '\n' then .multilineBasic
  else .basic

/-- A character between double quotes, where quotes are looked after elsewhere. -/
def escapeChar (multiline : Bool) (c : Char) : String :=
  if c = '\x08' then "\\b"
  else if c = '\t' then "\\t"
  else if c = '\n' then if multiline then "\n" else "\\n"
  else if c = '\x0c' then "\\f"
  else if c = '\r' then "\\r"
  else if c = '\\' then "\\\\"
  else if isControl c then "\\u00" ++ (Text.hexPair c.toNat).toUpper
  else c.toString

/-- Text between double quotes. Up to `quota` quotes in a row stand there as they are; `run` of them
stand before this point. -/
def escapeChars (multiline : Bool) (quota : Nat) : (run : Nat) → List Char → String
  | _, [] => ""
  | run, c :: rest =>
    if c = '"' then
      if run < quota then "\"" ++ escapeChars multiline quota (run + 1) rest
      else "\\\"" ++ escapeChars multiline quota 0 rest
    else escapeChar multiline c ++ escapeChars multiline quota 0 rest

/-- A string of several lines begins on a line of its own. -/
def opening (cs : List Char) : String :=
  if cs.contains '\n' then "\n" else ""

def stringText (s : String) : String :=
  let cs := s.toList
  match stringForm cs with
  | .basic => "\"" ++ escapeChars false 0 0 cs ++ "\""
  | .literal => "'" ++ s ++ "'"
  | .multilineBasic => "\"\"\"" ++ opening cs ++ escapeChars true 2 0 cs ++ "\"\"\""
  | .multilineLiteral => "'''" ++ opening cs ++ s ++ "'''"

/-- Floating-point numbers have the fewest digits that read back, no exponent, and always a
fraction. -/
def floatText (x : Binary64) : String :=
  if x.isNaN then "nan"
  else if !x.isFinite then x.plainText
  else x.plainText ++ (if x.plainText.toList.contains '.' then "" else ".0")

/-- Whether a key needs no quotes. -/
def isBareKey (key : String) : Bool :=
  !key.isEmpty && key.toList.all fun c => c.isAlphanum || c = '_' || c = '-'

def keyText (key : String) : String :=
  if isBareKey key then key else "\"" ++ escapeChars false 0 0 key.toList ++ "\""

mutual

/-- A value on one line. -/
def inlineText : Document → String
  | .bool b => if b then "true" else "false"
  | .integer n => writeInteger n
  | .float x => floatText x
  | .text s => stringText s
  | .list items => "[" ++ ", ".intercalate (inlineItems items) ++ "]"
  | .table entries => "\x7b " ++ ", ".intercalate (inlineEntryTexts entries) ++ " \x7d"
  | .null => ""
  | .instant => ""
  | .unreadable => ""

def inlineItems : List Document → List String
  | [] => []
  | d :: ds => inlineText d :: inlineItems ds

def inlineEntryTexts : List (Option String × Document) → List String
  | [] => []
  | (k, d) :: es => (keyText (k.getD "") ++ " = " ++ inlineText d) :: inlineEntryTexts es

end

/-- The value of an entry. A list of more than one item has a line for each of them. -/
def valueText : Document → String
  | .list (d₁ :: d₂ :: ds) =>
    "[\n" ++ String.join ((inlineItems (d₁ :: d₂ :: ds)).map fun s => "    " ++ s ++ ",\n") ++ "]"
  | d => inlineText d

def isTable : Document → Bool
  | .table _ => true
  | _ => false

/-- Whether a value is written on the line of its key. -/
def isPlain : Document → Bool
  | .null | .table _ | .instant | .unreadable => false
  | .list [] => true
  | .list items => !items.all isTable
  | _ => true

/-- The lines of the plain values of a table. -/
def plainLines (entries : List (Option String × Document)) : String :=
  String.join (entries.map fun (k, d) =>
    if isPlain d then keyText (k.getD "") ++ " = " ++ valueText d ++ "\n" else "")

/-- A header for the table at a path. -/
def header (path : List String) : String :=
  ".".intercalate (path.map keyText)

mutual

/-- What is written under headers of its own for the value at a path. -/
def valueSections (path : List String) : Document → List String
  | .table entries => ("[" ++ header path ++ "]\n" ++ plainLines entries) :: sections path entries
  | .list items => if items.all isTable then itemSections path items else []
  | _ => []

/-- What is written under headers of its own for the entries of the table at a path. -/
def sections (path : List String) : List (Option String × Document) → List String
  | [] => []
  | (k, d) :: es => valueSections (path ++ [k.getD ""]) d ++ sections path es

/-- What is written for a table of a list. -/
def itemSection (path : List String) : Document → List String
  | .table entries =>
    ("[[" ++ header path ++ "]]\n" ++ plainLines entries) :: sections path entries
  | _ => []

/-- What is written for the tables of a list. -/
def itemSections (path : List String) : List Document → List String
  | [] => []
  | d :: ds => itemSection path d ++ itemSections path ds

end

/-- The text of a document that is a table. -/
def pretty : Document → String
  | .table entries =>
    let blocks := plainLines entries :: sections [] entries
    "\n".intercalate (blocks.filter fun b => !b.isEmpty)
  | _ => ""

end EmuControl.Toml
