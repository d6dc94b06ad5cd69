import EmuControl.Text.Printable

/-!
# Quoted text

Text in double quotes, in which every character can be seen: quotes and backslashes are escaped,
four controls have short names, and all else that does not stand for itself is given by its code
point in hexadecimal.
-/
namespace EmuControl.Text

/-- Lower-case hexadecimal digits without leading zeros. -/
def hexDigits (n : Nat) : String :=
  String.ofList (Nat.toDigits 16 n)

/-- Two lower-case hexadecimal digits. -/
def hexPair (n : Nat) : String :=
  String.ofList [Nat.digitChar (n / 16), Nat.digitChar (n % 16)]

/-- A character as it stands in quoted text. -/
def quoteChar (c : Char) : String :=
  if c = '"' then "\\\""
  else if c = '\\' then "\\\\"
  else if c = '\t' then "\\t"
  else if c = '\r' then "\\r"
  else if c = '\n' then "\\n"
  else if c.toNat = 0 then "\\0"
  else if 0x20 ≤ c.toNat ∧ c.toNat < 0x7F then c.toString
  else if isCombining c || !isPrintable c then "\\u\x7b" ++ hexDigits c.toNat ++ "\x7d"
  else c.toString

/-- A text in double quotes. -/
def quote (s : String) : String :=
  "\"" ++ String.join (s.toList.map quoteChar) ++ "\""

end EmuControl.Text
