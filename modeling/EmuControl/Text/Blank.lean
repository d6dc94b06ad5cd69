/-!
# Blank characters

The characters that Unicode calls `White_Space`, and trimming by them. Text that holds a number is
trimmed before it is read, and the service updater's indentation is a run of blanks.
-/
namespace EmuControl.Text

/-- The Unicode property `White_Space`. -/
def isBlank (c : Char) : Bool :=
  let n := c.toNat
  (9 ≤ n && n ≤ 13) || n == 0x20 || n == 0x85 || n == 0xA0 || n == 0x1680 ||
    (0x2000 ≤ n && n ≤ 0x200A) || n == 0x2028 || n == 0x2029 || n == 0x202F || n == 0x205F ||
    n == 0x3000

/-- Without the blanks at the end. -/
def trimEnd (cs : List Char) : List Char :=
  (cs.reverse.dropWhile isBlank).reverse

/-- Without the blanks at both ends. -/
def trimChars (cs : List Char) : List Char :=
  trimEnd (cs.dropWhile isBlank)

/-- Without the blanks at both ends. -/
def trim (s : String) : String :=
  String.ofList (trimChars s.toList)

end EmuControl.Text
