import EmuControl.Proofs.BinaryConversion
import Mathlib.Data.Nat.Log
import Mathlib.Tactic.Ring

/-!
# Rounding keeps the order

A greater fraction is never rounded to a lesser number. With a given shift this holds of the nearest
integer, and a fraction with a greater shift has a pattern beyond all that a lesser shift can give,
since the leading bit of a shifted significand is set. So a fraction is known to be rounded to a
finite number as soon as a greater one is.
-/
namespace EmuControl.Number

theorem roundHalfEven_bounds (a b : Nat) :
    a / b ≤ roundHalfEven a b ∧ roundHalfEven a b ≤ a / b + 1 := by
  simp only [roundHalfEven]
  split_ifs <;> omega

theorem le_roundHalfEven {a b n : Nat} (hb : 0 < b) (h : n * b ≤ a) : n ≤ roundHalfEven a b :=
  ((Nat.le_div_iff_mul_le hb).mpr h).trans (roundHalfEven_bounds a b).1

theorem roundHalfEven_le {a b n : Nat} (h : a < n * b) : roundHalfEven a b ≤ n :=
  (roundHalfEven_bounds a b).2.trans (Nat.div_lt_of_lt_mul (Nat.mul_comm n b ▸ h))

theorem roundHalfEven_le_roundHalfEven {a b a' b' : Nat} (hb : 0 < b) (hb' : 0 < b')
    (h : a * b' ≤ a' * b) : roundHalfEven a b ≤ roundHalfEven a' b' := by
  have hdiv : a / b ≤ a' / b' := by
    refine (Nat.le_div_iff_mul_le hb').mpr (Nat.le_of_mul_le_mul_right ?_ hb)
    calc a / b * b' * b = a / b * b * b' := Nat.mul_right_comm ..
      _ ≤ a * b' := Nat.mul_le_mul_right _ (Nat.div_mul_le_self a b)
      _ ≤ a' * b := h
  rcases Nat.lt_or_eq_of_le hdiv with hlt | heq
  · exact (roundHalfEven_bounds a b).2.trans (Nat.le_trans hlt (roundHalfEven_bounds a' b').1)
  -- With the same integer below both, the rests decide.
  have hrest : a % b * b' ≤ a' % b' * b := by
    have ha := Nat.div_add_mod a b
    have ha' := Nat.div_add_mod a' b'
    rw [← heq] at ha'
    rw [← ha, ← ha', Nat.add_mul, Nat.add_mul, Nat.mul_right_comm b' (a / b) b,
      Nat.mul_comm b' b, Nat.mul_right_comm b (a / b) b'] at h
    exact Nat.le_of_add_le_add_left h
  have hreaches : b ≤ 2 * (a % b) → b' ≤ 2 * (a' % b') := by
    intro hhalf
    refine Nat.le_of_mul_le_mul_left ?_ hb
    calc b * b' ≤ 2 * (a % b) * b' := Nat.mul_le_mul_right _ hhalf
      _ = 2 * (a % b * b') := Nat.mul_assoc ..
      _ ≤ 2 * (a' % b' * b) := Nat.mul_le_mul_left _ hrest
      _ = b * (2 * (a' % b')) := by ring
  have hexceeds : b < 2 * (a % b) → b' < 2 * (a' % b') := by
    intro hhalf
    refine Nat.lt_of_mul_lt_mul_left (a := b) ?_
    calc b * b' < 2 * (a % b) * b' := Nat.mul_lt_mul_of_pos_right hhalf hb'
      _ = 2 * (a % b * b') := Nat.mul_assoc ..
      _ ≤ 2 * (a' % b' * b) := Nat.mul_le_mul_left _ hrest
      _ = b * (2 * (a' % b')) := by ring
  simp only [roundHalfEven, ← heq]
  split_ifs <;> omega

namespace BinaryFormat

variable {f : BinaryFormat}

/-- The shift of a fraction: what its integer part has beyond the significand. -/
def shift (f : BinaryFormat) (num den : Nat) : Nat :=
  (num * 2 ^ f.scale / den).log2 - f.fractionBits

theorem round_eq_min (f : BinaryFormat) (num den : Nat) :
    f.round num den = min (f.shift num den * 2 ^ f.fractionBits +
      roundHalfEven (num * 2 ^ f.scale) (den * 2 ^ f.shift num den)) f.infinity := rfl

/-- The significand of a fraction does not exceed its bits, and has the leading one when shifted. -/
theorem significand_bounds (num : Nat) {den : Nat} (hden : 0 < den) :
    roundHalfEven (num * 2 ^ f.scale) (den * 2 ^ f.shift num den) ≤ 2 * 2 ^ f.fractionBits ∧
      (f.shift num den ≠ 0 →
        2 ^ f.fractionBits ≤ roundHalfEven (num * 2 ^ f.scale) (den * 2 ^ f.shift num den)) := by
  have hpos : 0 < den * 2 ^ f.shift num den := Nat.mul_pos hden (Nat.two_pow_pos _)
  constructor
  · apply roundHalfEven_le
    have hlog := Nat.lt_log2_self (n := num * 2 ^ f.scale / den)
    have hle : (num * 2 ^ f.scale / den).log2 + 1 ≤ f.fractionBits + 1 + f.shift num den := by
      rw [shift]
      omega
    have hlt : num * 2 ^ f.scale / den < 2 ^ (f.fractionBits + 1 + f.shift num den) :=
      hlog.trans_le (Nat.pow_le_pow_right (by decide) hle)
    calc num * 2 ^ f.scale < 2 ^ (f.fractionBits + 1 + f.shift num den) * den :=
          (Nat.div_lt_iff_lt_mul hden).mp hlt
      _ = 2 * 2 ^ f.fractionBits * (den * 2 ^ f.shift num den) := by ring
  · intro hshift
    apply le_roundHalfEven hpos
    have hlog : (num * 2 ^ f.scale / den).log2 = f.fractionBits + f.shift num den := by
      rw [shift] at hshift ⊢
      omega
    have hne : num * 2 ^ f.scale / den ≠ 0 := by
      intro hzero
      rw [shift, hzero] at hshift
      exact hshift (by simp)
    have hle := (Nat.log2_eq_iff hne).mp hlog
    calc 2 ^ f.fractionBits * (den * 2 ^ f.shift num den) =
          2 ^ (f.fractionBits + f.shift num den) * den := by ring
      _ ≤ num * 2 ^ f.scale := (Nat.le_div_iff_mul_le hden).mp hle.1

theorem shift_le_shift {num den num' den' : Nat} (hden : 0 < den) (hden' : 0 < den')
    (h : num * den' ≤ num' * den) : f.shift num den ≤ f.shift num' den' := by
  have hdiv : num * 2 ^ f.scale / den ≤ num' * 2 ^ f.scale / den' := by
    refine (Nat.le_div_iff_mul_le hden').mpr (Nat.le_of_mul_le_mul_right ?_ hden)
    calc num * 2 ^ f.scale / den * den' * den =
          num * 2 ^ f.scale / den * den * den' := Nat.mul_right_comm ..
      _ ≤ num * 2 ^ f.scale * den' := Nat.mul_le_mul_right _ (Nat.div_mul_le_self _ _)
      _ = num * den' * 2 ^ f.scale := Nat.mul_right_comm ..
      _ ≤ num' * den * 2 ^ f.scale := Nat.mul_le_mul_right _ h
      _ = num' * 2 ^ f.scale * den := Nat.mul_right_comm ..
  rw [shift, shift, Nat.log2_eq_log_two, Nat.log2_eq_log_two]
  exact Nat.sub_le_sub_right (Nat.log_mono_right hdiv) _

theorem round_le_round {num den num' den' : Nat} (hden : 0 < den) (hden' : 0 < den')
    (h : num * den' ≤ num' * den) : f.round num den ≤ f.round num' den' := by
  rw [round_eq_min, round_eq_min]
  apply min_le_min_right
  rcases Nat.lt_or_eq_of_le (shift_le_shift (f := f) hden hden' h) with hlt | heq
  · have hupper := (significand_bounds (f := f) num hden).1
    have hlower := (significand_bounds (f := f) num' hden').2 (by omega)
    have hstep : (f.shift num den + 1) * 2 ^ f.fractionBits ≤
        f.shift num' den' * 2 ^ f.fractionBits := Nat.mul_le_mul_right _ hlt
    rw [Nat.add_mul] at hstep
    omega
  · rw [heq]
    apply Nat.add_le_add_left
    have hpos : 0 < 2 ^ f.shift num' den' := Nat.two_pow_pos _
    apply roundHalfEven_le_roundHalfEven (by positivity) (by positivity)
    calc num * 2 ^ f.scale * (den' * 2 ^ f.shift num' den') =
          num * den' * (2 ^ f.scale * 2 ^ f.shift num' den') := by ring
      _ ≤ num' * den * (2 ^ f.scale * 2 ^ f.shift num' den') := Nat.mul_le_mul_right _ h
      _ = num' * 2 ^ f.scale * (den * 2 ^ f.shift num' den') := by ring

theorem unit_pos (f : BinaryFormat) : 0 < Nat.pow 2 f.scale :=
  Nat.two_pow_pos f.scale

/-- What an unsigned pattern stands for, in steps of the format. -/
def steps (f : BinaryFormat) (p : Nat) : Nat :=
  (f.significand p).1 * 2 ^ (f.significand p).2

theorem steps_le_steps {p p' : Nat} (h : p ≤ p') : f.steps p ≤ f.steps p' := by
  obtain ⟨hnormal, hp⟩ := significand_normal f p
  obtain ⟨hnormal', hp'⟩ := significand_normal f p'
  have hpos : 0 < 2 ^ f.fractionBits := Nat.two_pow_pos _
  rw [steps, steps]
  generalize (f.significand p).1 = m at *
  generalize (f.significand p).2 = k at *
  generalize (f.significand p').1 = m' at *
  generalize (f.significand p').2 = k' at *
  have hlt := hnormal.significand_lt
  have hlt' := hnormal'.significand_lt
  rcases Nat.lt_trichotomy k k' with hk | rfl | hk
  · calc m * 2 ^ k ≤ 2 * 2 ^ f.fractionBits * 2 ^ k := Nat.mul_le_mul_right _ hlt.le
      _ = 2 ^ f.fractionBits * 2 ^ (k + 1) := by ring
      _ ≤ m' * 2 ^ k' := Nat.mul_le_mul (hnormal'.leading (by omega))
          (Nat.pow_le_pow_right (by decide) hk)
  · exact Nat.mul_le_mul_right _ (by omega)
  · have hlead := hnormal.leading (by omega)
    have hstep : (k' + 1) * 2 ^ f.fractionBits ≤ k * 2 ^ f.fractionBits :=
      Nat.mul_le_mul_right _ hk
    rw [Nat.add_mul] at hstep
    omega

end BinaryFormat

namespace Binary64

/-- Magnitudes have one denominator in common. -/
theorem exists_unit : ∃ unit, 0 < unit ∧
    ∀ x : Binary64, x.magnitude = (BinaryFormat.binary64.steps x.pattern, unit) :=
  ⟨_, BinaryFormat.binary64.unit_pos, fun _ => rfl⟩

theorem round_lt_signBit (num den : Nat) :
    BinaryFormat.binary64.round num den < BinaryFormat.binary64.signBit :=
  lt_of_le_of_lt (Nat.min_le_right _ _) (by decide)

theorem ofRatio_pattern (negative : Bool) (num den : Nat) :
    (ofRatio negative num den).pattern = BinaryFormat.binary64.round num den :=
  (ofPattern_isNegative negative (round_lt_signBit num den)).2

theorem isFinite_ofRatio_of_le {negative : Bool} {num den num' den' : Nat} (hden : 0 < den)
    (hden' : 0 < den') (h : num * den' ≤ num' * den)
    (hfinite : BinaryFormat.binary64.round num' den' < BinaryFormat.binary64.infinity) :
    (ofRatio negative num den).isFinite = true := by
  rw [isFinite, ofRatio_pattern, decide_eq_true_eq]
  exact (BinaryFormat.round_le_round hden hden' h).trans_lt hfinite

end Binary64

end EmuControl.Number
