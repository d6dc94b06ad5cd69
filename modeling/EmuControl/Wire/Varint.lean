import EmuControl.Text.Utf8

/-!
# Variable-length integers

A number is written in groups of seven bits, the least significant group first; the top bit of an
octet says that another one follows. A number of at most 64 bits takes at most ten octets, and the
tenth one holds a single bit.
-/
namespace EmuControl.Wire

namespace Varint

/-- The groups of `n`, least significant first. -/
def encode (n : Nat) : Bytes :=
  if n < 128 then [UInt8.ofNat n]
  else UInt8.ofNat (n % 128 + 128) :: encode (n / 128)
termination_by n
decreasing_by omega

/-- Reads a number of at most `left` octets, the tenth of which may only be 0 or 1, and gives the
rest of the input. -/
def readUpTo : (left : Nat) → Bytes → Option (Nat × Bytes)
  | 0, _ => none
  | _ + 1, [] => none
  | left + 1, b :: rest =>
    if b < 128 then
      if left = 0 ∧ 1 < b then none else some (b.toNat, rest)
    else
      (readUpTo left rest).map fun (high, rest) => (high * 128 + (b.toNat - 128), rest)

/-- The number of at most 64 bits at the head of the input, and the rest. -/
def read (bytes : Bytes) : Option (Nat × Bytes) :=
  readUpTo 10 bytes

end Varint

end EmuControl.Wire
