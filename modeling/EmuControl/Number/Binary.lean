/-!
# Binary floating point

Floating-point numbers are held by their bits, so equality of values is equality of patterns, and
every conversion is exact arithmetic on natural numbers.

A format has an exponent field and a fraction field. A finite pattern without its sign is a number
`p`; it stands for `m · 2 ^ (q₀ + k)`, where `q₀` is the least exponent of the format, and
`k · 2 ^ fractionBits + m = p`. Rounding produces such a `p`, and a carry out of the significand
moves into the exponent field by itself.
-/
namespace EmuControl.Number

/-- Widths of the two fields of a binary interchange format. -/
structure BinaryFormat where
  exponentBits : Nat
  fractionBits : Nat
  deriving DecidableEq, Repr

namespace BinaryFormat

def binary64 : BinaryFormat := ⟨11, 52⟩

def binary32 : BinaryFormat := ⟨8, 23⟩

/-- The least exponent is `2 ^ (-scale)`: the step between the smallest values. -/
def scale (f : BinaryFormat) : Nat :=
  Nat.pow 2 (f.exponentBits - 1) - 2 + f.fractionBits

/-- The unsigned pattern of infinity. -/
def infinity (f : BinaryFormat) : Nat :=
  (Nat.pow 2 f.exponentBits - 1) * Nat.pow 2 f.fractionBits

/-- The weight of the sign bit. -/
def signBit (f : BinaryFormat) : Nat :=
  Nat.pow 2 (f.exponentBits + f.fractionBits)

/-- Significand and shift of an unsigned finite pattern: it stands for `m · 2 ^ k / 2 ^ scale`. -/
def significand (f : BinaryFormat) (p : Nat) : Nat × Nat :=
  let biased := p / Nat.pow 2 f.fractionBits
  let fraction := p % Nat.pow 2 f.fractionBits
  if biased = 0 then (fraction, 0) else (Nat.pow 2 f.fractionBits + fraction, biased - 1)

end BinaryFormat

/-- The integer nearest to `num / den`, the even one of two that are equally near. -/
def roundHalfEven (num den : Nat) : Nat :=
  let q := num / den
  let r := num % den
  if 2 * r < den then q
  else if den < 2 * r then q + 1
  else if q % 2 = 0 then q else q + 1

/-- The unsigned pattern nearest to `num / den`, ties to even, overflow to infinity. -/
def BinaryFormat.round (f : BinaryFormat) (num den : Nat) : Nat :=
  let scaled := num * Nat.pow 2 f.scale
  let k := (scaled / den).log2 - f.fractionBits
  let m := roundHalfEven scaled (den * Nat.pow 2 k)
  min (k * Nat.pow 2 f.fractionBits + m) f.infinity

/-- The unsigned pattern of format `g` for the unsigned pattern `p` of format `f`.

A finite value is rounded. An infinity stays one. A NaN stays a NaN: it keeps the leading bits of
its fraction, and its quiet bit is set. -/
def BinaryFormat.convert (f g : BinaryFormat) (p : Nat) : Nat :=
  if p < f.infinity then
    let (m, k) := f.significand p
    g.round (m * Nat.pow 2 k) (Nat.pow 2 f.scale)
  else if p = f.infinity then g.infinity
  else
    let payload := (p - f.infinity) * Nat.pow 2 g.fractionBits / Nat.pow 2 f.fractionBits
    let quiet := Nat.pow 2 (g.fractionBits - 1)
    g.infinity + (if payload < quiet then payload + quiet else payload)

/-- A 64-bit floating-point number. -/
structure Binary64 where
  bits : UInt64
  deriving DecidableEq, Repr, Inhabited

/-- A 32-bit floating-point number. -/
structure Binary32 where
  bits : UInt32
  deriving DecidableEq, Repr, Inhabited

namespace Binary64

/-- From a sign and an unsigned pattern. -/
def ofPattern (negative : Bool) (p : Nat) : Binary64 :=
  ⟨UInt64.ofNat (if negative then BinaryFormat.binary64.signBit + p else p)⟩

def isNegative (x : Binary64) : Bool :=
  BinaryFormat.binary64.signBit ≤ x.bits.toNat

/-- The bits below the sign. -/
def pattern (x : Binary64) : Nat :=
  x.bits.toNat % BinaryFormat.binary64.signBit

def isFinite (x : Binary64) : Bool :=
  x.pattern < BinaryFormat.binary64.infinity

def isNaN (x : Binary64) : Bool :=
  BinaryFormat.binary64.infinity < x.pattern

/-- The magnitude of a finite number as a fraction. -/
def magnitude (x : Binary64) : Nat × Nat :=
  let (m, k) := BinaryFormat.binary64.significand x.pattern
  (m * Nat.pow 2 k, Nat.pow 2 BinaryFormat.binary64.scale)

/-- The number nearest to `num / den`, with the given sign. -/
def ofRatio (negative : Bool) (num den : Nat) : Binary64 :=
  ofPattern negative (BinaryFormat.binary64.round num den)

/-- The number nearest to an integer. -/
def ofInt (n : Int) : Binary64 :=
  ofRatio (n < 0) n.natAbs 1

/-- With the opposite sign. -/
def neg (x : Binary64) : Binary64 :=
  ofPattern (!x.isNegative) x.pattern

/-- Equality as numbers: zeros of either sign agree, and a NaN differs from itself. -/
def sameNumber (x y : Binary64) : Bool :=
  !x.isNaN && !y.isNaN && (x == y || (x.pattern == 0 && y.pattern == 0))

end Binary64

namespace Binary32

/-- From a sign and an unsigned pattern. -/
def ofPattern (negative : Bool) (p : Nat) : Binary32 :=
  ⟨UInt32.ofNat (if negative then BinaryFormat.binary32.signBit + p else p)⟩

def isNegative (x : Binary32) : Bool :=
  BinaryFormat.binary32.signBit ≤ x.bits.toNat

/-- The bits below the sign. -/
def pattern (x : Binary32) : Nat :=
  x.bits.toNat % BinaryFormat.binary32.signBit

def isNaN (x : Binary32) : Bool :=
  BinaryFormat.binary32.infinity < x.pattern

/-- The same number with 64 bits. -/
def widen (x : Binary32) : Binary64 :=
  .ofPattern x.isNegative (BinaryFormat.convert .binary32 .binary64 x.pattern)

end Binary32

/-- The nearest number with 32 bits, ties to even, infinity beyond the greatest one. -/
def Binary64.narrow (x : Binary64) : Binary32 :=
  .ofPattern x.isNegative (BinaryFormat.convert .binary64 .binary32 x.pattern)

end EmuControl.Number
