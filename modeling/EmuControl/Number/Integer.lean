import EmuControl.Text.Blank

/-!
# Decimal integers in text

An integer is written as an optional minus sign and decimal digits without leading zeros. It is read
more freely: one sign of either kind, then at least one ASCII digit, and nothing else. The range is
checked after the digits are read.
-/
namespace EmuControl.Number

/-- The value of an ASCII digit. -/
def digitValue? (c : Char) : Option Nat :=
  if '0' ≤ c && c ≤ '9' then some (c.toNat - '0'.toNat) else none

/-- The number that a run of digits continues, `acc` being what stands before it. -/
def readDigits (acc : Nat) : List Char → Option Nat
  | [] => some acc
  | c :: rest => (digitValue? c).bind fun d => readDigits (acc * 10 + d) rest

/-- At least one digit, and digits only. -/
def readNatural? : List Char → Option Nat
  | [] => none
  | cs@(_ :: _) => readDigits 0 cs

/-- One optional sign, then at least one digit. -/
def readSigned? : List Char → Option Int
  | '-' :: rest => (readNatural? rest).map fun n => -(n : Int)
  | '+' :: rest => (readNatural? rest).map fun n => (n : Int)
  | cs => (readNatural? cs).map fun n => (n : Int)

/-- An integer from `lo` to `hi` in decimal. -/
def readWithin? (lo hi : Int) (s : String) : Option Int :=
  (readSigned? s.toList).filter fun n => lo ≤ n && n ≤ hi

/-- A signed 32-bit integer in decimal. -/
def readInt32? (s : String) : Option Int32 :=
  (readWithin? (-2147483648) 2147483647 s).map Int32.ofInt

/-- A signed 64-bit integer in decimal. -/
def readInt64? (s : String) : Option Int64 :=
  (readWithin? (-9223372036854775808) 9223372036854775807 s).map Int64.ofInt

/-- An unsigned 16-bit integer in decimal. -/
def readUInt16? (s : String) : Option UInt16 :=
  (readWithin? 0 65535 s).map fun n => n.toNat.toUInt16

/-- Decimal digits without leading zeros. -/
def writeNatural (n : Nat) : String :=
  String.ofList (Nat.toDigits 10 n)

/-- Decimal digits, after a minus sign if the number is negative. -/
def writeInteger : Int → String
  | .ofNat n => writeNatural n
  | .negSucc n => "-" ++ writeNatural (n + 1)

/-- The decimal text of a 32-bit integer. -/
def writeInt32 (n : Int32) : String :=
  writeInteger n.toInt

/-- The decimal text of a 64-bit integer. -/
def writeInt64 (n : Int64) : String :=
  writeInteger n.toInt

end EmuControl.Number
