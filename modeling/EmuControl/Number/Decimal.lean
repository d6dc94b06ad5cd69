import EmuControl.Number.Binary

/-!
# Decimal forms of binary numbers

A decimal is a coefficient and a power of ten. Writing a binary number takes the decimal with the
fewest digits among those that read back as the number, and of these the nearest one; the output
formats differ only in what a tie picks and in how the digits are laid out. Reading takes the binary
number nearest to a decimal.
-/
namespace EmuControl.Number

/-- The number `coefficient · 10 ^ exponent`. -/
structure Decimal where
  coefficient : Nat
  exponent : Int
  deriving DecidableEq, Repr

/-- What a number midway between two decimals of equal length is written as. -/
inductive Tie where
  | up
  | even
  deriving DecidableEq, Repr

namespace Decimal

/-- Without zeros at the end of the coefficient. -/
def normalize (d : Decimal) : Decimal :=
  let zeros := ((Nat.toDigits 10 d.coefficient).reverse.takeWhile (· == '0')).length
  ⟨d.coefficient / Nat.pow 10 zeros, d.exponent + zeros⟩

/-- The exponent `e` with `10 ^ e ≤ num / den < 10 ^ (e + 1)`, for values from `10 ^ -400` on. -/
def leadingExponent (num den : Nat) : Int :=
  if den ≤ num then (Nat.toDigits 10 (num / den)).length - 1
  else
    match (List.range 400).find? fun k => den ≤ num * Nat.pow 10 (k + 1) with
    | some k => -(k + 1 : Int)
    | none => -400

/-- A positive number with the interval of numbers that round to it, over one denominator. -/
structure Neighbourhood where
  low : Nat
  value : Nat
  high : Nat
  denominator : Nat
  /-- Whether the two ends of the interval still round to the number. -/
  closed : Bool
  deriving Repr

namespace Neighbourhood

/-- In units of `10 ^ u`. -/
def inUnits (n : Neighbourhood) (u : Int) : Neighbourhood :=
  match u with
  | .ofNat k => { n with denominator := n.denominator * Nat.pow 10 k }
  | .negSucc k =>
    let s := Nat.pow 10 (k + 1)
    { n with low := n.low * s, value := n.value * s, high := n.high * s }

/-- Whether the integer `c` lies in the interval. -/
def holds (n : Neighbourhood) (c : Nat) : Bool :=
  let p := c * n.denominator
  if n.closed then n.low ≤ p && p ≤ n.high else n.low < p && p < n.high

/-- The integer of the interval that is nearest to the number, if one of its two neighbours lies
in the interval. -/
def nearestInteger? (n : Neighbourhood) (tie : Tie) : Option Nat :=
  let below := n.value / n.denominator
  let rest := n.value % n.denominator
  match n.holds below, n.holds (below + 1) with
  | false, false => none
  | true, false => some below
  | false, true => some (below + 1)
  | true, true =>
    if 2 * rest < n.denominator then some below
    else if n.denominator < 2 * rest then some (below + 1)
    else match tie with
      | .up => some (below + 1)
      | .even => some (if below % 2 = 0 then below else below + 1)

end Neighbourhood

/-- The numbers that round to a finite positive one. The interval reaches half a step to each side,
and only a quarter of a step down where the exponent changes. -/
def neighbourhood (x : Binary64) : Neighbourhood :=
  let f := BinaryFormat.binary64
  let (m, k) := f.significand x.pattern
  let down := if m = Nat.pow 2 f.fractionBits ∧ 0 < k then 1 else 2
  { low := (4 * m - down) * Nat.pow 2 k
    value := 4 * m * Nat.pow 2 k
    high := (4 * m + 2) * Nat.pow 2 k
    denominator := 4 * Nat.pow 2 f.scale
    closed := m % 2 = 0 }

/-- The decimal with the fewest digits that reads back as the magnitude of a finite number. -/
def shortest (tie : Tie) (x : Binary64) : Decimal :=
  let n := neighbourhood x
  let lead := leadingExponent n.value n.denominator
  let found := (List.range 17).findSome? fun (places : Nat) =>
    let u := lead - places
    ((n.inUnits u).nearestInteger? tie).map fun c => normalize ⟨c, u⟩
  if x.pattern = 0 then ⟨0, 0⟩ else found.getD ⟨0, 0⟩

/-- The binary number nearest to a decimal, infinity if it is too great. -/
def toBinary64 (negative : Bool) (d : Decimal) : Binary64 :=
  let size := (Nat.toDigits 10 d.coefficient).length + d.exponent
  if d.coefficient = 0 ∨ size < -400 then .ofPattern negative 0
  else if 400 < size then .ofPattern negative BinaryFormat.binary64.infinity
  else match d.exponent with
    | .ofNat k => .ofRatio negative (d.coefficient * Nat.pow 10 k) 1
    | .negSucc k => .ofRatio negative d.coefficient (Nat.pow 10 (k + 1))

/-- Digits with a decimal point where it belongs, and none if there is no fraction. -/
def positional (d : Decimal) : String :=
  let digits := Nat.toDigits 10 d.coefficient
  match d.exponent with
  | .ofNat k => String.ofList (digits ++ List.replicate k '0')
  | .negSucc k =>
    let places := k + 1
    if places < digits.length then
      String.ofList (digits.take (digits.length - places)) ++ "." ++
        String.ofList (digits.drop (digits.length - places))
    else "0." ++ String.ofList (List.replicate (places - digits.length) '0' ++ digits)

/-- One digit, the other digits behind a point, and a signed exponent. -/
def scientific (d : Decimal) : String :=
  let digits := Nat.toDigits 10 d.coefficient
  let exponent := d.exponent + (digits.length - 1 : Nat)
  let fraction := digits.drop 1
  String.ofList (digits.take 1) ++
    (if fraction.isEmpty then "" else "." ++ String.ofList fraction) ++
    (if exponent < 0 then "e-" else "e+") ++ String.ofList (Nat.toDigits 10 exponent.natAbs)

end Decimal

namespace Binary64

/-- A sign for a negative number. -/
def signText (x : Binary64) : String :=
  if x.isNegative then "-" else ""

/-- Shortest digits, always positional, without a point if there is no fraction. -/
def plainText (x : Binary64) : String :=
  if x.isNaN then "NaN"
  else x.signText ++
    (if x.isFinite then (Decimal.shortest .up x).positional else "inf")

/-- The nearest integer, the even one of two that are equally near. -/
def wholeText (x : Binary64) : String :=
  if x.isNaN then "NaN"
  else x.signText ++
    (if x.isFinite then
      let (num, den) := x.magnitude
      String.ofList (Nat.toDigits 10 (roundHalfEven num den))
    else "inf")

end Binary64

end EmuControl.Number
