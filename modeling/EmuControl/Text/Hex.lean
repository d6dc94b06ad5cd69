import EmuControl.Text.Utf8

/-!
# Bytes in hexadecimal

Two lower-case digits for every byte. Reading also takes upper-case digits.
-/
namespace EmuControl.Text

/-- The value of a hexadecimal digit. -/
def hexValue? (c : Char) : Option Nat :=
  if '0' ≤ c && c ≤ '9' then some (c.toNat - '0'.toNat)
  else if 'a' ≤ c && c ≤ 'f' then some (c.toNat - 'a'.toNat + 10)
  else if 'A' ≤ c && c ≤ 'F' then some (c.toNat - 'A'.toNat + 10)
  else none

/-- The number that hexadecimal digits stand for. -/
def readHex? (cs : List Char) : Option Nat :=
  cs.foldlM (fun n c => (hexValue? c).map (n * 16 + ·)) 0

/-- A number with leading zeros up to the given count of digits. -/
def writeHex (width n : Nat) : String :=
  let digits := Nat.toDigits 16 n
  String.ofList (List.replicate (width - digits.length) '0' ++ digits)

end EmuControl.Text

namespace EmuControl.Bytes

open EmuControl.Text

def toHex (bytes : Bytes) : String :=
  String.join (bytes.map fun b => writeHex 2 b.toNat)

/-- The bytes that pairs of digits stand for. -/
def ofHexChars? : List Char → Option Bytes
  | [] => some []
  | a :: b :: rest => do
    let n ← readHex? [a, b]
    let bytes ← ofHexChars? rest
    some (n.toUInt8 :: bytes)
  | _ => none

def ofHex? (s : String) : Option Bytes :=
  ofHexChars? s.toList

end EmuControl.Bytes
