import EmuControl.Number.Binary
import Mathlib.Algebra.Order.Ring.Nat
import Mathlib.Tactic.Positivity

/-!
# Narrowing and widening

A number of 32 bits is one of 64 bits as well, and rounding it back finds it again. The argument is
about unsigned patterns. A pattern has one significand and one shift, a value that is exactly
representable is rounded to the pattern that represents it, and every finite value of the small
format is representable in the large one.

A NaN need not come back: conversion sets its quiet bit. What has once been narrowed is quiet, so
narrowing after widening changes nothing about it either.
-/
namespace EmuControl.Number

namespace BinaryFormat

variable {f g : BinaryFormat} {m k M K : Nat}

theorem binary32_fractionBits : binary32.fractionBits = 23 := rfl
theorem binary64_fractionBits : binary64.fractionBits = 52 := rfl
theorem binary32_infinity : binary32.infinity = 255 * 2 ^ 23 := by decide
theorem binary64_infinity : binary64.infinity = 2047 * 2 ^ 52 := by decide
theorem binary32_signBit : binary32.signBit = 2 ^ 31 := by decide
theorem binary64_signBit : binary64.signBit = 2 ^ 63 := by decide
theorem binary32_scale : binary32.scale = 149 := by decide
theorem binary64_scale : binary64.scale = 1074 := by decide

/-- `m` and `k` are the significand and the shift of a pattern: only without a shift may the leading
bit of the significand be missing. -/
structure Normal (f : BinaryFormat) (m k : Nat) : Prop where
  significand_lt : m < 2 * 2 ^ f.fractionBits
  leading : k ≠ 0 → 2 ^ f.fractionBits ≤ m

theorem significand_normal (f : BinaryFormat) (p : Nat) :
    f.Normal (f.significand p).1 (f.significand p).2 ∧
      (f.significand p).2 * 2 ^ f.fractionBits + (f.significand p).1 = p := by
  have hpos : 0 < 2 ^ f.fractionBits := Nat.two_pow_pos _
  have hlt := Nat.mod_lt p hpos
  have hdiv := Nat.div_add_mod p (2 ^ f.fractionBits)
  simp only [significand, Nat.pow_eq]
  split
  · rename_i hzero
    rw [hzero, Nat.mul_zero, Nat.zero_add] at hdiv
    exact ⟨⟨by omega, fun h => absurd rfl h⟩, by omega⟩
  · rename_i hnonzero
    refine ⟨⟨by omega, fun _ => Nat.le_add_right _ _⟩, ?_⟩
    obtain ⟨b, hb⟩ := Nat.exists_eq_succ_of_ne_zero hnonzero
    rw [hb, Nat.mul_succ] at hdiv
    change (p / 2 ^ f.fractionBits - 1) * 2 ^ f.fractionBits + _ = p
    rw [hb, Nat.succ_sub_one, Nat.mul_comm]
    omega

theorem Normal.significand_eq (h : f.Normal m k) :
    f.significand (k * 2 ^ f.fractionBits + m) = (m, k) := by
  have hpos : 0 < 2 ^ f.fractionBits := Nat.two_pow_pos _
  obtain ⟨hlt, hlead⟩ := h
  simp only [significand, Nat.pow_eq]
  rw [Nat.mul_comm, Nat.mul_add_div hpos, Nat.mul_add_mod]
  by_cases hm : m < 2 ^ f.fractionBits
  · have hk : k = 0 := by
      by_contra hk
      exact absurd (hlead hk) (by omega)
    rw [hk, Nat.div_eq_of_lt hm, Nat.mod_eq_of_lt hm]
    rfl
  · have hdiv : m / 2 ^ f.fractionBits = 1 := by
      rw [Nat.div_eq_iff hpos]
      omega
    have hmod := Nat.div_add_mod m (2 ^ f.fractionBits)
    rw [hdiv] at hmod ⊢
    rw [if_neg (by omega), Nat.add_sub_cancel]
    congr 1
    omega

theorem roundHalfEven_mul (q : Nat) {d : Nat} (hd : 0 < d) : roundHalfEven (q * d) d = q := by
  simp only [roundHalfEven, Nat.mul_mod_left, Nat.mul_div_cancel q hd]
  rw [if_pos (by omega)]

/-- A value that has a pattern is rounded to it. -/
theorem Normal.round_eq (h : f.Normal m k) {num den : Nat} (hden : 0 < den)
    (hvalue : num * 2 ^ f.scale = m * 2 ^ k * den) :
    f.round num den = min (k * 2 ^ f.fractionBits + m) f.infinity := by
  obtain ⟨hlt, hlead⟩ := h
  have hshift : (m * 2 ^ k).log2 - f.fractionBits = k := by
    by_cases hk : k = 0
    · subst hk
      rw [Nat.pow_zero, Nat.mul_one]
      by_cases hm : m = 0
      · simp [hm]
      · have hlog : m.log2 < f.fractionBits + 1 := (Nat.log2_lt hm).mpr (by rw [pow_succ]; omega)
        omega
    · have hm := hlead hk
      have hk0 : 0 < 2 ^ k := Nat.two_pow_pos k
      have hne : m * 2 ^ k ≠ 0 := Nat.mul_ne_zero (by have := Nat.two_pow_pos f.fractionBits; omega)
        hk0.ne'
      have hlog : (m * 2 ^ k).log2 = f.fractionBits + k := by
        rw [Nat.log2_eq_iff hne]
        constructor
        · rw [pow_add]
          exact Nat.mul_le_mul_right _ hm
        · rw [show f.fractionBits + k + 1 = f.fractionBits + 1 + k by omega, pow_add, pow_succ]
          exact Nat.mul_lt_mul_of_pos_right (by omega) hk0
      omega
  simp only [round, Nat.pow_eq, hvalue, Nat.mul_div_cancel _ hden, hshift]
  rw [mul_assoc, mul_comm (2 ^ k) den, roundHalfEven_mul m (by positivity)]

/-- Conversion of a finite value that the other format can represent. -/
theorem Normal.convert_eq (h : f.Normal m k) (hG : g.Normal M K)
    (hfinite : k * 2 ^ f.fractionBits + m < f.infinity)
    (hvalue : m * 2 ^ k * 2 ^ g.scale = M * 2 ^ K * 2 ^ f.scale) :
    f.convert g (k * 2 ^ f.fractionBits + m) = min (K * 2 ^ g.fractionBits + M) g.infinity := by
  simp only [convert, if_pos hfinite, h.significand_eq, Nat.pow_eq]
  exact hG.round_eq (Nat.two_pow_pos _) hvalue

theorem wide_pattern_lt {k e M : Nat} (hk : k < 255) (he : e < 24) (hM : M < 2 ^ 53) :
    (k + 873 + e) * 2 ^ 52 + M < 2047 * 2 ^ 52 := by
  omega

/-- Every finite value of 32 bits is one of 64 bits, with its leading bit in place. -/
theorem exists_wide (h : binary32.Normal m k)
    (hfinite : k * 2 ^ binary32.fractionBits + m < binary32.infinity) :
    ∃ M K, binary64.Normal M K ∧
      m * 2 ^ k * 2 ^ binary64.scale = M * 2 ^ K * 2 ^ binary32.scale ∧
      K * 2 ^ binary64.fractionBits + M < binary64.infinity := by
  have hlt : m < 2 ^ 24 := h.significand_lt
  rw [binary32_infinity, binary32_fractionBits] at hfinite
  rw [binary32_scale, binary64_scale, binary64_infinity]
  by_cases hm : m = 0
  · exact ⟨0, 0, ⟨by decide, fun h => absurd rfl h⟩, by simp only [hm, zero_mul], by decide⟩
  obtain ⟨e, he⟩ : ∃ e, m.log2 = e := ⟨_, rfl⟩
  obtain ⟨hle, hgt⟩ := (Nat.log2_eq_iff hm).mp he
  have he24 : e < 24 := he ▸ (Nat.log2_lt hm).mpr hlt
  have hlead : 2 ^ 52 ≤ m * 2 ^ (52 - e) := by
    calc 2 ^ 52 = 2 ^ e * 2 ^ (52 - e) := by rw [← pow_add]; congr 1; omega
      _ ≤ m * 2 ^ (52 - e) := Nat.mul_le_mul_right _ hle
  have hsig : m * 2 ^ (52 - e) < 2 ^ 53 := by
    calc m * 2 ^ (52 - e) < 2 ^ (e + 1) * 2 ^ (52 - e) :=
          Nat.mul_lt_mul_of_pos_right hgt (Nat.two_pow_pos _)
      _ = 2 ^ 53 := by rw [← pow_add]; congr 1; omega
  refine ⟨m * 2 ^ (52 - e), k + 873 + e, ⟨hsig, fun _ => hlead⟩, ?_, ?_⟩
  · rw [mul_assoc, mul_assoc, mul_assoc, ← pow_add, ← pow_add, ← pow_add]
    congr 2
    omega
  · exact wide_pattern_lt (by omega) he24 hsig

theorem convert_convert_of_finite {p : Nat} (hp : p < binary32.infinity) :
    binary32.convert binary64 p < binary64.infinity ∧
      binary64.convert binary32 (binary32.convert binary64 p) = p := by
  obtain ⟨h, hpattern⟩ := significand_normal binary32 p
  rw [← hpattern] at hp ⊢
  obtain ⟨M, K, hwide, hvalue, hfinite⟩ := exists_wide h hp
  rw [h.convert_eq hwide hp hvalue, Nat.min_eq_left hfinite.le]
  refine ⟨hfinite, ?_⟩
  rw [hwide.convert_eq h hfinite hvalue.symm, Nat.min_eq_left hp.le]

theorem convert_infinity : f.convert g f.infinity = g.infinity := by
  rw [convert, if_neg (Nat.lt_irrefl _), if_pos rfl]

/-- A NaN keeps the leading bits of its fraction, and the first one is set. -/
theorem convert_of_infinity_lt {p : Nat} (hp : f.infinity < p) :
    let payload := (p - f.infinity) * 2 ^ g.fractionBits / 2 ^ f.fractionBits
    let quiet := 2 ^ (g.fractionBits - 1)
    f.convert g p = g.infinity + if payload < quiet then payload + quiet else payload := by
  intro payload quiet
  rw [convert, if_neg (by omega), if_neg (by omega)]
  rfl

/-- The least pattern of a quiet NaN. -/
def quietNaN (f : BinaryFormat) : Nat :=
  f.infinity + 2 ^ (f.fractionBits - 1)

theorem binary32_quietNaN : binary32.quietNaN = 255 * 2 ^ 23 + 2 ^ 22 := by decide

theorem convert_convert_of_quiet {p : Nat} (hp : binary32.quietNaN ≤ p)
    (hlt : p < binary32.signBit) : binary32.convert binary64 p < binary64.signBit ∧
      binary64.convert binary32 (binary32.convert binary64 p) = p := by
  rw [binary32_quietNaN] at hp
  rw [binary32_signBit] at hlt
  have hwide : binary32.convert binary64 p = 2047 * 2 ^ 52 + (p - 255 * 2 ^ 23) * 2 ^ 29 := by
    rw [convert_of_infinity_lt (by rw [binary32_infinity]; omega), binary32_infinity,
      binary64_infinity, binary32_fractionBits, binary64_fractionBits, if_neg (by omega)]
    omega
  rw [hwide, binary64_signBit]
  refine ⟨by omega, ?_⟩
  rw [convert_of_infinity_lt (by rw [binary64_infinity]; omega), binary32_infinity,
    binary64_infinity, binary32_fractionBits, binary64_fractionBits, if_neg (by omega)]
  omega

/-- What comes of a conversion is no NaN or a quiet one. -/
theorem convert_cases (p : Nat) :
    f.convert g p ≤ g.infinity ∨ g.quietNaN ≤ f.convert g p := by
  rcases Nat.lt_trichotomy p f.infinity with h | rfl | h
  · rw [convert, if_pos h]
    exact .inl (Nat.min_le_right _ _)
  · exact .inl convert_infinity.le
  · rw [convert_of_infinity_lt h, quietNaN]
    right
    generalize (p - f.infinity) * 2 ^ g.fractionBits / 2 ^ f.fractionBits = payload
    split <;> omega

theorem convert_lt_signBit {p : Nat} (hp : p < binary64.signBit) :
    binary64.convert binary32 p < binary32.signBit := by
  have hquiet : ∀ payload < 2 ^ 23,
      255 * 2 ^ 23 + (if payload < 2 ^ 22 then payload + 2 ^ 22 else payload) < 2 ^ 31 := by
    intro payload hpayload
    split <;> omega
  have hinfinity : binary32.infinity < binary32.signBit := by decide
  rcases Nat.lt_trichotomy p binary64.infinity with h | rfl | h
  · rw [convert, if_pos h]
    exact lt_of_le_of_lt (Nat.min_le_right _ _) hinfinity
  · exact convert_infinity.trans_lt hinfinity
  · rw [convert_of_infinity_lt h, binary32_infinity, binary32_signBit]
    rw [binary64_infinity] at h ⊢
    rw [binary64_signBit] at hp
    rw [binary32_fractionBits, binary64_fractionBits]
    exact hquiet _ (by omega)

end BinaryFormat

open BinaryFormat

namespace Binary64

theorem ofPattern_isNegative (negative : Bool) {p : Nat} (hp : p < binary64.signBit) :
    (ofPattern negative p).isNegative = negative ∧ (ofPattern negative p).pattern = p := by
  change p < 2 ^ 63 at hp
  have hsign : binary64.signBit = 2 ^ 63 := rfl
  cases negative <;>
  · simp only [isNegative, pattern, ofPattern, hsign, UInt64.toNat_ofNat']
    simp
    omega

end Binary64

namespace Binary32

theorem ofPattern_pattern (x : Binary32) : ofPattern x.isNegative x.pattern = x := by
  have hlt := x.bits.toNat_lt
  have hsign : binary32.signBit = 2 ^ 31 := rfl
  have hbits : (if x.isNegative then binary32.signBit + x.pattern else x.pattern) =
      x.bits.toNat := by
    simp only [isNegative, pattern, hsign, decide_eq_true_eq]
    split <;> omega
  rw [ofPattern, hbits, UInt32.ofNat_toNat]

theorem pattern_lt (x : Binary32) : x.pattern < binary32.signBit :=
  Nat.mod_lt _ (by decide)

/-- Narrowing finds a number again when conversion does so with its pattern. -/
theorem narrow_widen_of_convert {x : Binary32}
    (hlt : binary32.convert binary64 x.pattern < binary64.signBit)
    (hback : binary64.convert binary32 (binary32.convert binary64 x.pattern) = x.pattern) :
    x.widen.narrow = x := by
  obtain ⟨hnegative, hpattern⟩ := Binary64.ofPattern_isNegative x.isNegative hlt
  rw [widen, Binary64.narrow, hnegative, hpattern, hback, ofPattern_pattern]

theorem infinity_lt_signBit : binary64.infinity < binary64.signBit := by
  decide

theorem narrow_widen {x : Binary32} (h : x.isNaN = false) : x.widen.narrow = x := by
  have hle : x.pattern ≤ binary32.infinity := by simpa [isNaN] using h
  rcases Nat.lt_or_eq_of_le hle with hlt | heq
  · obtain ⟨hwide, hback⟩ := convert_convert_of_finite hlt
    exact narrow_widen_of_convert (hwide.trans infinity_lt_signBit) hback
  · refine narrow_widen_of_convert ?_ ?_
    · rw [heq, convert_infinity]
      exact infinity_lt_signBit
    · rw [heq, convert_infinity, convert_infinity]

-- The least positive number is below the normal range of the one width and inside that of the other.
example :
    (Binary32.mk 1).widen = ⟨0x36a0000000000000⟩ ∧
      (Binary64.mk 0x36a0000000000000).narrow = ⟨1⟩ := by
  decide +kernel

end Binary32

namespace Binary64

theorem narrow_pattern (x : Binary64) :
    x.narrow.pattern = binary64.convert binary32 x.pattern := by
  have hlt : binary64.convert binary32 x.pattern < 2 ^ 31 :=
    convert_lt_signBit (Nat.mod_lt _ (by decide))
  have hsign : binary32.signBit = 2 ^ 31 := rfl
  simp only [narrow, Binary32.pattern, Binary32.ofPattern, hsign, UInt32.toNat_ofNat']
  split <;> omega

/-- What has been narrowed survives, NaNs included. -/
theorem narrow_widen_narrow (x : Binary64) : x.narrow.widen.narrow = x.narrow := by
  rcases convert_cases (f := binary64) (g := binary32) x.pattern with h | h
  · refine Binary32.narrow_widen ?_
    rw [Binary32.isNaN, narrow_pattern, decide_eq_false_iff_not]
    omega
  · rw [← narrow_pattern] at h
    obtain ⟨hlt, hback⟩ := convert_convert_of_quiet h x.narrow.pattern_lt
    exact Binary32.narrow_widen_of_convert hlt hback

end Binary64

end EmuControl.Number
