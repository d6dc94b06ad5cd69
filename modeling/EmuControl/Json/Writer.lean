import EmuControl.Document.Basic
import EmuControl.Number.Decimal
import EmuControl.Number.Integer
import EmuControl.Text.Quoted

/-!
# Writing JSON

Every item of a list and every entry of a table stands on a line of its own, indented by two spaces
for each level. Numbers that are not finite are written as `null`.
-/
namespace EmuControl.Json

open EmuControl.Number

/-- Floating-point numbers have the fewest digits that read back, the even one of two equally good
ones. They are positional from `10 ^ -5` up to less than `10 ^ 16`, with a fraction, and have an
exponent otherwise. -/
def floatText (x : Binary64) : String :=
  if !x.isFinite then "null"
  else
    let d := Decimal.shortest .even x
    let lead := d.exponent + ((Nat.toDigits 10 d.coefficient).length - 1 : Nat)
    x.signText ++
      (if d.coefficient = 0 then "0.0"
      else if -5 ≤ lead && lead ≤ 15 then
        d.positional ++ (if 0 ≤ d.exponent then ".0" else "")
      else d.scientific)

/-- A character inside of quotes. -/
def escapeChar (c : Char) : String :=
  if c = '"' then "\\\""
  else if c = '\\' then "\\\\"
  else if c = '\x08' then "\\b"
  else if c = '\x0c' then "\\f"
  else if c = '\n' then "\\n"
  else if c = '\r' then "\\r"
  else if c = '\t' then "\\t"
  else if c.toNat < 0x20 then "\\u00" ++ Text.hexPair c.toNat
  else c.toString

def quoted (s : String) : String :=
  "\"" ++ String.join (s.toList.map escapeChar) ++ "\""

/-- A new line at a level. -/
def newline (level : Nat) : String :=
  "\n" ++ String.ofList (List.replicate (2 * level) ' ')

mutual

def render (level : Nat) : Document → String
  | .null => "null"
  | .bool b => if b then "true" else "false"
  | .integer n => writeInteger n
  | .float x => floatText x
  | .text s => quoted s
  | .list [] => "[]"
  | .list (d :: ds) =>
    "[" ++ newline (level + 1) ++ render (level + 1) d ++ renderItems (level + 1) ds ++
      newline level ++ "]"
  | .table [] => "\x7b\x7d"
  | .table ((k, d) :: es) =>
    "\x7b" ++ newline (level + 1) ++ quoted (k.getD "") ++ ": " ++ render (level + 1) d ++
      renderEntries (level + 1) es ++ newline level ++ "\x7d"
  | .instant => "null"
  | .unreadable => "null"

/-- The items of a list after the first one. -/
def renderItems (level : Nat) : List Document → String
  | [] => ""
  | d :: ds => "," ++ newline level ++ render level d ++ renderItems level ds

/-- The entries of a table after the first one. -/
def renderEntries (level : Nat) : List (Option String × Document) → String
  | [] => ""
  | (k, d) :: es =>
    "," ++ newline level ++ quoted (k.getD "") ++ ": " ++ render level d ++ renderEntries level es

end

/-- The text of a document. -/
def pretty (d : Document) : String :=
  render 0 d

end EmuControl.Json
