/-!
# Sets of characters by ranges

A set of characters is given by the ascending list of the code points at which membership changes:
characters below the first one are outside, those from there up to the second one are inside, and so
on.
-/
namespace EmuControl.Text

/-- Whether a code point lies in the set that changes at `boundaries`. -/
def inRanges (boundaries : List Nat) (n : Nat) : Bool :=
  (boundaries.takeWhile (· ≤ n)).length % 2 = 1

end EmuControl.Text
