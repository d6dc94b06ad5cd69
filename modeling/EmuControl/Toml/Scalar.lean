import EmuControl.Document.Basic
import EmuControl.Number.Decimal
import EmuControl.Number.Integer
import EmuControl.Text.Hex

/-!
# Plain values in TOML

Truth values, integers in four bases, floating-point numbers, and points in time. Underscores may
stand between digits. An integer has at most 128 bits, and a floating-point number that is written
in digits is finite.
-/
namespace EmuControl.Toml

open EmuControl.Number

/-- The value of a digit of a base up to 16. -/
def digitIn (base : Nat) (c : Char) : Option Nat :=
  (Text.hexValue? c).filter (· < base)

/-- Continues a number by digits, before which an underscore may stand. -/
def continueDigits (base : Nat) (acc : Nat) : List Char → Option Nat
  | [] => some acc
  | '_' :: c :: rest => (digitIn base c).bind fun d => continueDigits base (acc * base + d) rest
  | c :: rest => (digitIn base c).bind fun d => continueDigits base (acc * base + d) rest

/-- At least one digit; underscores between digits. -/
def digitsIn (base : Nat) : List Char → Option Nat
  | [] => none
  | c :: rest => (digitIn base c).bind fun d => continueDigits base d rest

/-- Decimal digits without a leading zero. -/
def wholeDigits : List Char → Option Nat
  | ['0'] => some 0
  | '0' :: _ => none
  | cs => digitsIn 10 cs

/-- An optional sign, and what comes after it. -/
def signed : List Char → Bool × List Char
  | '+' :: rest => (false, rest)
  | '-' :: rest => (true, rest)
  | cs => (false, cs)

/-- An integer that has at most 128 bits. -/
def boundedInteger (n : Int) : Option Document :=
  if -(Nat.pow 2 127 : Int) ≤ n && n < Nat.pow 2 128 then some (.integer n) else none

def integer? : List Char → Option Document
  | '0' :: 'x' :: rest => (digitsIn 16 rest).bind fun n => boundedInteger n
  | '0' :: 'o' :: rest => (digitsIn 8 rest).bind fun n => boundedInteger n
  | '0' :: 'b' :: rest => (digitsIn 2 rest).bind fun n => boundedInteger n
  | cs =>
    let (negative, digits) := signed cs
    (wholeDigits digits).bind fun n => boundedInteger (if negative then -n else n)

/-- The part before the first character that passes a test, and the part behind that character. -/
def splitAtFirst (p : Char → Bool) (cs : List Char) : List Char × Option (List Char) :=
  match cs.span fun c => !p c with
  | (before, []) => (before, none)
  | (before, _ :: behind) => (before, some behind)

/-- The exponent of a floating-point number; zero if there is none. -/
def exponent? : Option (List Char) → Option Int
  | none => some 0
  | some cs =>
    let (negative, digits) := signed cs
    (digitsIn 10 digits).map fun n => if negative then -n else n

/-- Digits with a fraction, an exponent or both. -/
def decimal? (cs : List Char) : Option Decimal := do
  let (mantissa, exponent) := splitAtFirst (fun c => c == 'e' || c == 'E') cs
  let (whole, fraction) := splitAtFirst (· == '.') mantissa
  let w ← wholeDigits whole
  let e ← exponent? exponent
  match fraction with
  | none => if exponent.isSome then some ⟨w, e⟩ else none
  | some digits =>
    let f ← digitsIn 10 digits
    let places := (digits.filter (· != '_')).length
    some ⟨w * Nat.pow 10 places + f, e - places⟩

def float? (cs : List Char) : Option Document :=
  let (negative, cs) := signed cs
  if cs = "inf".toList then some (.float (.ofPattern negative BinaryFormat.binary64.infinity))
  else if cs = "nan".toList then
    some (.float (.ofPattern negative (BinaryFormat.binary64.infinity + Nat.pow 2 51)))
  else (decimal? cs).bind fun d =>
    let x := d.toBinary64 negative
    if x.isFinite then some (.float x) else none

/-- A number of exactly so many decimal digits, within a range. -/
def fixedDigits (count lo hi : Nat) (cs : List Char) : Option (Nat × List Char) := do
  let digits := cs.take count
  if digits.length = count then
    let n ← readNatural? digits
    if lo ≤ n && n ≤ hi then some (n, cs.drop count) else none
  else none

def isLeapYear (y : Nat) : Bool :=
  (y % 4 = 0 && y % 100 ≠ 0) || y % 400 = 0

def daysInMonth (y m : Nat) : Nat :=
  if m = 2 then (if isLeapYear y then 29 else 28)
  else if m = 4 || m = 6 || m = 9 || m = 11 then 30
  else 31

/-- A given character. -/
def expect (c : Char) : List Char → Option (List Char)
  | d :: rest => if c = d then some rest else none
  | [] => none

/-- A calendar date. -/
def date? (cs : List Char) : Option (List Char) := do
  let (y, cs) ← fixedDigits 4 0 9999 cs
  let cs ← expect '-' cs
  let (m, cs) ← fixedDigits 2 1 12 cs
  let cs ← expect '-' cs
  let (_, cs) ← fixedDigits 2 1 (daysInMonth y m) cs
  some cs

/-- A fraction of a second, if a point comes next. -/
def secondFraction? : List Char → Option (List Char)
  | '.' :: rest =>
    let digits := rest.takeWhile fun c => (digitIn 10 c).isSome
    if digits.isEmpty then none else some (rest.drop digits.length)
  | cs => some cs

/-- A time of day; its seconds may be missing. -/
def time? (cs : List Char) : Option (List Char) := do
  let (_, cs) ← fixedDigits 2 0 23 cs
  let cs ← expect ':' cs
  let (_, cs) ← fixedDigits 2 0 59 cs
  match cs with
  | ':' :: cs =>
    let (_, cs) ← fixedDigits 2 0 60 cs
    secondFraction? cs
  | cs => some cs

/-- The distance from universal time, if one comes next. -/
def offset? : List Char → Option (List Char)
  | 'Z' :: rest => some rest
  | 'z' :: rest => some rest
  | c :: rest =>
    if c = '+' || c = '-' then do
      let (_, cs) ← fixedDigits 2 0 23 rest
      let cs ← expect ':' cs
      let (_, cs) ← fixedDigits 2 0 59 cs
      some cs
    else some (c :: rest)
  | [] => some []

/-- A date with a time behind it. -/
def dateTime? (cs : List Char) : Option (List Char) := do
  let cs ← date? cs
  match cs with
  | c :: rest =>
    if c = 'T' || c = 't' || c = ' ' then do
      let cs ← time? rest
      offset? cs
    else none
  | [] => none

/-- A date, a time, or both. -/
def instant? (cs : List Char) : Option Document :=
  if dateTime? cs = some [] || date? cs = some [] || time? cs = some [] then some .instant else none

def scalar? (cs : List Char) : Option Document :=
  if cs = "true".toList then some (.bool true)
  else if cs = "false".toList then some (.bool false)
  else (integer? cs).orElse fun _ => (float? cs).orElse fun _ => instant? cs

/-- Characters that plain values consist of. -/
def isScalarChar (c : Char) : Bool :=
  c.isAlphanum || c = '_' || c = '-' || c = '+' || c = '.' || c = ':'

/-- The characters of the plain value at the head of the input, and the rest. A date goes on after a
blank if a digit follows. -/
def takeScalar (cs : List Char) : List Char × List Char :=
  let (head, rest) := cs.span isScalarChar
  match rest with
  | ' ' :: c :: _ =>
    if date? head = some [] && c.isDigit then
      let (tail, rest) := (rest.drop 1).span isScalarChar
      (head ++ ' ' :: tail, rest)
    else (head, rest)
  | _ => (head, rest)

end EmuControl.Toml
