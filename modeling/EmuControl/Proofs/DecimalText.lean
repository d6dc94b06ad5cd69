import EmuControl.Number.Decimal
import EmuControl.Proofs.DecimalInteger
import Mathlib.Algebra.Group.Nat.Defs

/-!
# Decimals in digits

A decimal that is written in digits, with a fraction even if that is zero, is a whole part and a
fraction between which the point stands. The digits of both together are the coefficient, with as
many zeros behind it as the point was moved.
-/
namespace EmuControl.Number

theorem isDigits_append {digits more : List Char} (h : IsDigits digits)
    (hmore : ∀ c ∈ more, c.isDigit = true) : IsDigits (digits ++ more) := by
  refine ⟨List.append_ne_nil_of_left_ne_nil h.1 more, fun c hc => ?_⟩
  rcases List.mem_append.mp hc with hc | hc
  · exact h.2 c hc
  · exact hmore c hc

theorem isDigit_of_mem_zeros {k : Nat} {c : Char} (h : c ∈ List.replicate k '0') :
    c.isDigit = true := by
  rw [List.eq_of_mem_replicate h]
  rfl

theorem isWhole_zero : IsWhole ['0'] := isWhole_toDigits 0

theorem isWhole_of_append {digits more : List Char} (h : IsDigits digits)
    (hzero : (digits ++ more).head? ≠ some '0') : IsWhole digits := by
  refine ⟨h, fun heq => absurd ?_ hzero⟩
  rw [List.head?_append_of_ne_nil _ h.1, heq]

/-- Digits with zeros behind them. -/
theorem ofDigitChars_append_zeros (digits : List Char) (k : Nat) :
    Nat.ofDigitChars 10 (digits ++ List.replicate k '0') 0 =
      Nat.ofDigitChars 10 digits 0 * 10 ^ k := by
  rw [Nat.ofDigitChars_append, Nat.ofDigitChars_replicate_zero, Nat.mul_comm]

namespace Decimal

/-- The whole part and the fraction of a decimal that is written with a point. -/
structure IsSplit (d : Decimal) (whole fraction : List Char) : Prop where
  isWhole : IsWhole whole
  isDigits : IsDigits fraction
  value : Nat.ofDigitChars 10 (whole ++ fraction) 0 =
    d.coefficient * 10 ^ (d.exponent + fraction.length).toNat
  /-- Without a fraction of its own the decimal gets one of a single digit. -/
  places : (fraction.length : Int) = if 0 ≤ d.exponent then 1 else -d.exponent

/-- Without a fraction, zeros stand behind the digits. -/
theorem isSplit_whole {coefficient k : Nat} (h : coefficient = 0 → k = 0) :
    IsSplit ⟨coefficient, .ofNat k⟩ (Nat.toDigits 10 coefficient ++ List.replicate k '0') ['0'] := by
  have hdigits := isDigits_toDigits coefficient
  have hwhole : IsWhole (Nat.toDigits 10 coefficient ++ List.replicate k '0') := by
    by_cases hzero : coefficient = 0
    · rw [h hzero, hzero]
      exact isWhole_zero
    · refine ⟨isDigits_append hdigits fun c hc => isDigit_of_mem_zeros hc, fun heq => ?_⟩
      rw [List.head?_append_of_ne_nil _ hdigits.1] at heq
      exact absurd heq (head_toDigits_ne_zero hzero)
  refine ⟨hwhole, isDigits_toDigits 0, ?_, rfl⟩
  have hzeros : List.replicate k '0' ++ ['0'] = List.replicate (k + 1) '0' :=
    List.replicate_succ'.symm
  rw [List.append_assoc, hzeros, ofDigitChars_append_zeros, Nat.ofDigitChars_ten_toDigits]
  rfl

/-- A fraction has as many digits as the exponent says, and the digits are the coefficient. -/
theorem isSplit_fraction {coefficient k : Nat} {whole fraction : List Char}
    (hwhole : IsWhole whole) (hfraction : IsDigits fraction) (hlength : fraction.length = k + 1)
    (hvalue : Nat.ofDigitChars 10 (whole ++ fraction) 0 = coefficient) :
    IsSplit ⟨coefficient, .negSucc k⟩ whole fraction := by
  refine ⟨hwhole, hfraction, ?_, ?_⟩
  · have hnone : (Int.negSucc k + (k + 1 : Nat)).toNat = 0 := by omega
    rw [hvalue, hlength, hnone, Nat.pow_zero, Nat.mul_one]
  · have hnegative : ¬ (0 : Int) ≤ Int.negSucc k := by omega
    rw [hlength]
    exact (if_neg hnegative).symm

/-- The point stands inside the digits. -/
theorem isSplit_inside {coefficient k : Nat} (hne : coefficient ≠ 0)
    (hlt : k + 1 < (Nat.toDigits 10 coefficient).length) :
    IsSplit ⟨coefficient, .negSucc k⟩
      ((Nat.toDigits 10 coefficient).take ((Nat.toDigits 10 coefficient).length - (k + 1)))
      ((Nat.toDigits 10 coefficient).drop ((Nat.toDigits 10 coefficient).length - (k + 1))) := by
  have hdigits := isDigits_toDigits coefficient
  generalize hplace : (Nat.toDigits 10 coefficient).length - (k + 1) = place
  have hsplit := List.take_append_drop place (Nat.toDigits 10 coefficient)
  have hleft : IsDigits ((Nat.toDigits 10 coefficient).take place) := by
    refine ⟨?_, fun c hc => hdigits.2 c (List.mem_of_mem_take hc)⟩
    rw [Ne, List.take_eq_nil_iff]
    exact not_or.mpr ⟨by omega, hdigits.1⟩
  have hright : IsDigits ((Nat.toDigits 10 coefficient).drop place) := by
    refine ⟨?_, fun c hc => hdigits.2 c (List.mem_of_mem_drop hc)⟩
    rw [Ne, List.drop_eq_nil_iff]
    omega
  apply isSplit_fraction (isWhole_of_append hleft (hsplit ▸ head_toDigits_ne_zero hne)) hright
  · rw [List.length_drop]
    omega
  · rw [hsplit, Nat.ofDigitChars_ten_toDigits]

/-- Zeros stand between the point and the digits. -/
theorem isSplit_leadingZeros {coefficient k : Nat}
    (hle : (Nat.toDigits 10 coefficient).length ≤ k + 1) :
    IsSplit ⟨coefficient, .negSucc k⟩ ['0']
      (List.replicate (k + 1 - (Nat.toDigits 10 coefficient).length) '0' ++
        Nat.toDigits 10 coefficient) := by
  have hdigits := isDigits_toDigits coefficient
  apply isSplit_fraction isWhole_zero
  · refine ⟨List.append_ne_nil_of_right_ne_nil _ hdigits.1, fun c hc => ?_⟩
    rcases List.mem_append.mp hc with hc | hc
    · exact isDigit_of_mem_zeros hc
    · exact hdigits.2 c hc
  · rw [List.length_append, List.length_replicate]
    omega
  · have hzero : Nat.ofDigitChars 10 ['0'] 0 = 0 := rfl
    rw [Nat.ofDigitChars_append, hzero, Nat.ofDigitChars_append,
      Nat.ofDigitChars_replicate_zero, Nat.mul_zero, Nat.ofDigitChars_ten_toDigits]

theorem positional_split {d : Decimal} (h : d.coefficient = 0 → d.exponent = 0) :
    ∃ whole fraction, d.IsSplit whole fraction ∧
      (d.positional ++ if 0 ≤ d.exponent then ".0" else "").toList = whole ++ '.' :: fraction := by
  obtain ⟨coefficient, exponent⟩ := d
  cases exponent with
  | ofNat k =>
    refine ⟨_, _, isSplit_whole fun hzero => Int.ofNat.inj (h hzero), ?_⟩
    simp [positional]
  | negSucc k =>
    have hne : coefficient ≠ 0 := fun hzero => Int.noConfusion (h hzero)
    have hpoint : (if (0 : Int) ≤ Int.negSucc k then ".0" else "") = "" := if_neg (by omega)
    simp only [positional, hpoint, String.append_empty]
    split
    case isTrue hlt =>
      refine ⟨_, _, isSplit_inside hne hlt, ?_⟩
      simp
    case isFalse hle =>
      refine ⟨_, _, isSplit_leadingZeros (Nat.le_of_not_lt hle), ?_⟩
      simp

end Decimal

end EmuControl.Number
