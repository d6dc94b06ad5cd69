/-!
# Text as bytes

A byte sequence is a list of octets. Text becomes bytes by UTF-8, and bytes are text exactly when
they are the UTF-8 form of some text.
-/
namespace EmuControl

/-- A sequence of octets. -/
abbrev Bytes := List UInt8

namespace Bytes

/-- The UTF-8 form of a text. -/
def ofText (s : String) : Bytes :=
  s.toByteArray.data.toList

/-- The text whose UTF-8 form the bytes are, if there is one. -/
def toText? (bytes : Bytes) : Option String :=
  let packed := ByteArray.mk bytes.toArray
  if valid : packed.IsValidUTF8 then some (String.ofByteArray packed valid) else none

@[simp]
theorem toText?_ofText (s : String) : toText? (ofText s) = some s := by
  have packed : ByteArray.mk (ofText s).toArray = s.toByteArray := by simp [ofText]
  simp only [toText?, packed, s.isValidUTF8, dite_true]

/-- Reading bytes as text loses nothing. -/
theorem ofText_of_toText? {bytes : Bytes} {s : String} (h : toText? bytes = some s) :
    ofText s = bytes := by
  simp only [toText?] at h
  split at h
  · cases h
    simp [ofText]
  · cases h

end Bytes

end EmuControl
