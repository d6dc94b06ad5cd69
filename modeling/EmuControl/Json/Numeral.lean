import EmuControl.Document.Basic
import EmuControl.Number.Decimal

/-!
# Numbers in JSON

A number without fraction and exponent is an integer as long as it has 64 bits; a negative zero and
all other numbers are floating-point.

The value of a floating-point number is found in two roundings: the digits are taken as an integer
as far as it has 64 bits and rounded once, and the result is scaled by a power of ten and rounded
again. So the nearest number is found if there are few digits, and not always otherwise.
-/
namespace EmuControl.Json

open EmuControl.Number

/-- The parts of a number as it is written, digits by their values. -/
structure Numeral where
  negative : Bool
  whole : List Nat
  /-- The digits behind the point, if there is one. -/
  fraction : Option (List Nat)
  /-- The sign and the digits of the exponent, if there is one. -/
  exponent : Option (Bool × List Nat)
  deriving DecidableEq, Repr

/-- The greatest integer of 64 bits. -/
def maxSignificand : Nat := UInt64.size - 1

/-- Takes digits up as long as the number has 64 bits; gives the number and the digits left over. -/
def takeDigits (acc : Nat) : List Nat → Nat × List Nat
  | [] => (acc, [])
  | d :: rest =>
    if acc * 10 + d ≤ maxSignificand then takeDigits (acc * 10 + d) rest else (acc, d :: rest)

/-- The number that digits stand for. -/
def digitsValue (digits : List Nat) : Nat :=
  digits.foldl (fun acc d => acc * 10 + d) 0

/-- The greatest power of ten that is scaled by in one step. -/
def maxPower : Nat := 308

/-- The floating-point number nearest to a power of ten. -/
def powerOfTen (k : Nat) : Nat × Nat :=
  (Binary64.ofRatio false (Nat.pow 10 k) 1).magnitude

/-- A magnitude divided by a power of ten, rounded. -/
def divided (x : Binary64) (k : Nat) : Binary64 :=
  let (n, d) := x.magnitude
  let (pn, pd) := powerOfTen k
  .ofRatio false (n * pd) (d * pn)

/-- A magnitude multiplied by a power of ten, rounded. -/
def multiplied (x : Binary64) (k : Nat) : Binary64 :=
  let (n, d) := x.magnitude
  let (pn, pd) := powerOfTen k
  .ofRatio false (n * pn) (d * pd)

/-- A significand scaled by a power of ten, or nothing if the result is too great. What is left
after two divisions by the greatest power is zero. -/
def scaled (significand : Nat) (exponent : Int) : Option Binary64 :=
  let x := Binary64.ofRatio false significand 1
  if significand = 0 then some x
  else match exponent with
    | .ofNat k =>
      if k ≤ maxPower then
        let y := multiplied x k
        if y.isFinite then some y else none
      else none
    | .negSucc k =>
      let k := k + 1
      if k ≤ maxPower then some (divided x k)
      else if k ≤ 2 * maxPower then some (divided (divided x maxPower) (k - maxPower))
      else some (.ofPattern false 0)

/-- The greatest exponent that is computed with. -/
def maxExponent : Nat := 2147483647

/-- The exponent that a number has in all, its point being `shift` places away from its end. -/
def totalExponent (shift : Int) : Option (Bool × List Nat) → Int
  | none => shift
  | some (negative, digits) =>
    let e : Int := min (digitsValue digits) maxExponent
    if negative then max (shift - e) (-2147483648) else min (shift + e) 2147483647

/-- Whether the exponent itself is out of range. -/
def exponentOverflows : Option (Bool × List Nat) → Bool
  | none => false
  | some (_, digits) => maxExponent < digitsValue digits

namespace Numeral

/-- The magnitude of the number as a floating-point one. -/
def magnitude? (n : Numeral) : Option Binary64 :=
  let (significand, dropped) := takeDigits 0 n.whole
  let fraction := n.fraction.getD []
  let (significand', rest) := takeDigits significand fraction
  let shift : Int := dropped.length - (fraction.length - rest.length : Nat)
  if exponentOverflows n.exponent then
    if significand' = 0 || (n.exponent.map (·.1)).getD false then some (.ofPattern false 0)
    else none
  else scaled significand' (totalExponent shift n.exponent)

/-- What the number stands for. -/
def value (n : Numeral) : Document :=
  let asFloat : Document :=
    match n.magnitude? with
    | none => .unreadable
    | some x => .float (if n.negative then x.neg else x)
  if n.fraction.isSome || n.exponent.isSome then asFloat
  else
    let k := digitsValue n.whole
    if n.negative then
      if k = 0 || Nat.pow 2 63 < k then asFloat else .integer (-k)
    else if k ≤ maxSignificand then .integer k
    else asFloat

end Numeral

end EmuControl.Json
