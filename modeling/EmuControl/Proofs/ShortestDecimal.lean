import EmuControl.Number.Decimal
import EmuControl.Proofs.BinaryRounding
import EmuControl.Proofs.DecimalInteger
import Mathlib.Algebra.Order.Field.Power
import Mathlib.Data.Rat.Cast.Order
import Mathlib.Tactic.FieldSimp
import Mathlib.Tactic.Linarith

/-!
# Bounds on shortest decimals

The decimal that a finite number is written as lies in the interval of the numbers that round to it,
and it has at most seventeen digits before the zeros at its end are taken off. So it does not exceed
the decimal of the greatest finite number, and reading it cannot overflow.

The greatest number is a case of its own: its interval reaches beyond what can be read, but its
shortest decimal does not.
-/
namespace EmuControl.Number

open BinaryFormat

/-- The decimal of the greatest finite number. -/
def greatestDecimal : Nat := 17976931348623157 * 10 ^ 292

/-- A number has as many digits as its size says. -/
theorem toDigits_bounds {n : Nat} (h : n ≠ 0) :
    10 ^ ((Nat.toDigits 10 n).length - 1) ≤ n ∧ n < 10 ^ (Nat.toDigits 10 n).length := by
  have hpos : 0 < (Nat.toDigits 10 n).length := List.length_pos_iff.mpr (isDigits_toDigits n).1
  constructor
  · by_contra hlt
    rcases Nat.eq_zero_or_pos ((Nat.toDigits 10 n).length - 1) with hone | hmore
    · rw [hone] at hlt
      omega
    · have hle := (Nat.length_toDigits_le_iff (b := 10) (by decide) hmore).mpr (Nat.not_le.mp hlt)
      omega
  · exact (Nat.length_toDigits_le_iff (by decide) hpos).mp le_rfl

namespace Decimal

/-- The number that a decimal stands for. -/
def toRat (d : Decimal) : ℚ :=
  d.coefficient * (10 : ℚ) ^ d.exponent

section Zeros

/-- The zeros at the end of a number that is not zero do not make up all of its digits. -/
theorem length_zeros_lt {n : Nat} (h : n ≠ 0) :
    ((Nat.toDigits 10 n).reverse.takeWhile (· == '0')).length < (Nat.toDigits 10 n).length := by
  by_contra hle
  have hprefix := List.takeWhile_prefix (l := (Nat.toDigits 10 n).reverse) (· == '0')
  have hall := hprefix.eq_of_length_le (by rw [List.length_reverse]; omega)
  obtain ⟨c, more, hdigits⟩ := List.exists_cons_of_ne_nil (isDigits_toDigits n).1
  have hc : c ∈ (Nat.toDigits 10 n).reverse := by simp [hdigits]
  rw [← hall] at hc
  have hzero : c = '0' := by simpa using List.mem_takeWhile_imp hc
  refine head_toDigits_ne_zero h ?_
  rw [hdigits, hzero]
  rfl

theorem normalize_coefficient_ne_zero {d : Decimal} (h : d.coefficient ≠ 0) :
    d.normalize.coefficient ≠ 0 := by
  intro hzero
  have hlt := length_zeros_lt h
  have hpow := (Nat.div_eq_zero_iff_lt (Nat.pow_pos (by decide))).mp hzero
  have hpos : 0 < ((Nat.toDigits 10 d.coefficient).reverse.takeWhile (· == '0')).length := by
    by_contra hnone
    rw [Nat.pos_iff_ne_zero, not_not] at hnone
    rw [hnone] at hpow
    change d.coefficient < 1 at hpow
    omega
  have hle := (Nat.length_toDigits_le_iff (by decide) hpos).mpr hpow
  omega

theorem normalize_toRat_le (d : Decimal) : d.normalize.toRat ≤ d.toRat := by
  rw [toRat, toRat, normalize]
  generalize ((Nat.toDigits 10 d.coefficient).reverse.takeWhile (· == '0')).length = zeros
  have hle : d.coefficient / 10 ^ zeros * 10 ^ zeros ≤ d.coefficient := Nat.div_mul_le_self _ _
  have hcast : ((d.coefficient / 10 ^ zeros : Nat) : ℚ) * 10 ^ zeros ≤ d.coefficient := by
    exact_mod_cast hle
  have hpos : (0 : ℚ) < 10 ^ d.exponent := zpow_pos (by norm_num) _
  dsimp only
  calc ((d.coefficient / 10 ^ zeros : Nat) : ℚ) * 10 ^ (d.exponent + (zeros : Int)) =
        ((d.coefficient / 10 ^ zeros : Nat) : ℚ) * 10 ^ zeros * 10 ^ d.exponent := by
        rw [zpow_add₀ (by norm_num), zpow_natCast]
        ring
    _ ≤ d.coefficient * 10 ^ d.exponent := mul_le_mul_of_nonneg_right hcast hpos.le

end Zeros

section Leading

theorem lt_leadingExponent {num den : Nat} (hden : 0 < den) :
    (num : ℚ) / den < 10 ^ (leadingExponent num den + 1) := by
  have hdenRat : (0 : ℚ) < den := by exact_mod_cast hden
  rw [div_lt_iff₀ hdenRat]
  -- Below one, the exponent is minus the least power that lifts the fraction to one.
  have hbelow : ∀ k : Nat, num * 10 ^ k < den → (num : ℚ) < 10 ^ (-(k : Int)) * den := by
    intro k hk
    have hpow : (0 : ℚ) < 10 ^ k := by positivity
    rw [zpow_neg, zpow_natCast, inv_mul_eq_div, lt_div_iff₀ hpow]
    exact_mod_cast hk
  rw [leadingExponent]
  split
  case isTrue hle =>
    have hlength : num / den < 10 ^ (Nat.toDigits 10 (num / den)).length :=
      (Nat.length_toDigits_le_iff (by decide)
        (List.length_pos_iff.mpr (isDigits_toDigits _).1)).mp le_rfl
    rw [sub_add_cancel, zpow_natCast]
    exact_mod_cast (Nat.div_lt_iff_lt_mul hden).mp hlength
  case isFalse hlt =>
    split
    case h_1 k hfound =>
      obtain ⟨-, -, hbefore⟩ := List.find?_range_eq_some.mp hfound
      have hexponent : -((k : Int) + 1) + 1 = -(k : Int) := by ring
      rw [hexponent]
      apply hbelow
      cases k with
      | zero => simpa using hlt
      | succ j => simpa using hbefore j (Nat.lt_succ_self j)
    case h_2 hnone =>
      have hall : ∀ k < 400, num * 10 ^ (k + 1) < den := fun k hk => by
        simpa using List.find?_eq_none.mp hnone k (List.mem_range.mpr hk)
      exact hbelow (398 + 1) (hall 398 (by decide))

end Leading

namespace Neighbourhood

variable {n : Neighbourhood} {u : Int} {c : Nat}

/-- A ratio of the neighbourhood, in units. -/
theorem inUnits_denominator_pos (h : 0 < n.denominator) : 0 < (n.inUnits u).denominator := by
  cases u with
  | ofNat k => exact Nat.mul_pos h (Nat.pow_pos (by decide))
  | negSucc k => exact h

theorem inUnits_ratio (h : 0 < n.denominator) :
    ((n.inUnits u).value : ℚ) / (n.inUnits u).denominator =
        (n.value : ℚ) / n.denominator * 10 ^ (-u) ∧
      ((n.inUnits u).high : ℚ) / (n.inUnits u).denominator =
        (n.high : ℚ) / n.denominator * 10 ^ (-u) := by
  have hne : (n.denominator : ℚ) ≠ 0 := by exact_mod_cast h.ne'
  cases u with
  | ofNat k =>
    have hpow : (10 : ℚ) ^ (-(Int.ofNat k)) = (10 ^ k)⁻¹ := by
      rw [Int.ofNat_eq_natCast, zpow_neg, zpow_natCast]
    simp only [inUnits, Nat.pow_eq, Nat.cast_mul, Nat.cast_pow, Nat.cast_ofNat, hpow]
    constructor <;> field_simp
  | negSucc k =>
    have hpow : (10 : ℚ) ^ (-(Int.negSucc k)) = 10 ^ (k + 1) := by
      rw [Int.neg_negSucc, zpow_natCast]
    simp only [inUnits, Nat.pow_eq, Nat.cast_mul, Nat.cast_pow, Nat.cast_ofNat, hpow]
    constructor <;> ring

theorem low_inUnits_pos (h : 0 < n.low) : 0 < (n.inUnits u).low := by
  cases u with
  | ofNat k => exact h
  | negSucc k => exact Nat.mul_pos h (Nat.pow_pos (by decide))

theorem bounds_of_holds (h : n.holds c = true) :
    n.low ≤ c * n.denominator ∧ c * n.denominator ≤ n.high := by
  rw [holds] at h
  split at h
  · simpa using h
  · rw [Bool.and_eq_true, decide_eq_true_eq, decide_eq_true_eq] at h
    exact ⟨h.1.le, h.2.le⟩

theorem nearestInteger?_spec {tie : Tie} (h : n.nearestInteger? tie = some c) :
    n.holds c = true ∧ c ≤ n.value / n.denominator + 1 := by
  unfold nearestInteger? at h
  dsimp only at h
  split at h
  case h_1 => cases h
  case h_2 hbelow _ =>
    cases h
    exact ⟨hbelow, Nat.le_succ _⟩
  case h_3 _ habove =>
    cases h
    exact ⟨habove, le_rfl⟩
  case h_4 hbelow habove =>
    -- Both neighbours lie in the interval, so whichever is taken does.
    have hcases : c = n.value / n.denominator ∨ c = n.value / n.denominator + 1 := by
      cases tie <;> simp only at h <;> split_ifs at h <;> simp_all
    rcases hcases with rfl | rfl
    · exact ⟨hbelow, Nat.le_succ _⟩
    · exact ⟨habove, le_rfl⟩

end Neighbourhood

/-- What a text of the decimal needs: few digits, a moderate size, and one form for zero. -/
structure IsModerate (d : Decimal) : Prop where
  toRat_le : d.toRat ≤ greatestDecimal
  coefficient_le : d.coefficient ≤ 10 ^ 17
  exponent_of_zero : d.coefficient = 0 → d.exponent = 0

theorem isModerate_zero : IsModerate ⟨0, 0⟩ :=
  ⟨by simp [toRat], Nat.zero_le _, fun _ => rfl⟩

section Shortest

theorem shortest_cases (tie : Tie) (x : Binary64) :
    shortest tie x = ⟨0, 0⟩ ∨ x.pattern ≠ 0 ∧ ∃ places < 17, ∃ c,
      let n := neighbourhood x
      let u := leadingExponent n.value n.denominator - (places : Nat)
      (n.inUnits u).nearestInteger? tie = some c ∧ shortest tie x = normalize ⟨c, u⟩ := by
  rw [shortest]
  split
  case isTrue => exact .inl rfl
  case isFalse hne =>
    dsimp only
    generalize hfound : List.findSome? _ (List.range 17) = found
    cases found with
    | none => exact .inl rfl
    | some d =>
      obtain ⟨places, hplaces, hd⟩ := List.exists_of_findSome?_eq_some hfound
      obtain ⟨c, hc, rfl⟩ := Option.map_eq_some_iff.mp hd
      exact .inr ⟨hne, places, List.mem_range.mp hplaces, c, hc, rfl⟩

theorem neighbourhood_denominator_pos (x : Binary64) : 0 < (neighbourhood x).denominator := by
  simp only [neighbourhood, Nat.pow_eq]
  positivity

theorem neighbourhood_low_pos {x : Binary64} (h : x.pattern ≠ 0) : 0 < (neighbourhood x).low := by
  obtain ⟨hnormal, hpattern⟩ := significand_normal binary64 x.pattern
  have hm : (binary64.significand x.pattern).1 ≠ 0 := by
    intro hzero
    by_cases hk : (binary64.significand x.pattern).2 = 0
    · rw [hzero, hk] at hpattern
      exact h (by omega)
    · have hlead := hnormal.leading hk
      have hpos := Nat.two_pow_pos binary64.fractionBits
      omega
  simp only [neighbourhood, Nat.pow_eq]
  refine Nat.mul_pos ?_ (Nat.two_pow_pos _)
  split <;> omega

/-- The pattern of the greatest finite number. -/
def greatestPattern : Nat := 2047 * 2 ^ 52 - 1

/-- The shift of the greatest finite number. -/
def greatestShift : Nat := 2045

theorem neighbourhood_high_le {x : Binary64} (h : x.pattern < greatestPattern) :
    (neighbourhood x).high ≤ greatestDecimal * (neighbourhood x).denominator := by
  obtain ⟨hnormal, hpattern⟩ := significand_normal binary64 x.pattern
  have hsteps : binary64.steps x.pattern ≤ binary64.steps (greatestPattern - 1) :=
    steps_le_steps (by omega)
  have hshift : (binary64.significand x.pattern).2 ≤ greatestShift := by
    rw [greatestShift]
    by_contra hlt
    have hlead := hnormal.leading (by omega)
    have hmul : 2046 * 2 ^ 52 ≤ (binary64.significand x.pattern).2 * 2 ^ 52 :=
      Nat.mul_le_mul_right _ (by omega)
    rw [binary64_fractionBits] at hlead hpattern
    rw [greatestPattern] at h
    omega
  have hpow : 2 ^ (binary64.significand x.pattern).2 ≤ 2 ^ greatestShift :=
    Nat.pow_le_pow_right (by decide) hshift
  have hgreatest : 4 * binary64.steps (greatestPattern - 1) + 2 * 2 ^ greatestShift ≤
      greatestDecimal * (4 * Nat.pow 2 binary64.scale) := by decide +kernel
  calc (neighbourhood x).high =
        4 * binary64.steps x.pattern + 2 * 2 ^ (binary64.significand x.pattern).2 := by
        simp only [neighbourhood, steps, Nat.pow_eq]
        ring
    _ ≤ 4 * binary64.steps (greatestPattern - 1) + 2 * 2 ^ greatestShift :=
        Nat.add_le_add (Nat.mul_le_mul_left 4 hsteps) (Nat.mul_le_mul_left 2 hpow)
    _ ≤ greatestDecimal * (neighbourhood x).denominator := hgreatest

theorem shortest_congr {x y : Binary64} (h : x.pattern = y.pattern) (tie : Tie) :
    shortest tie x = shortest tie y := by
  simp only [shortest, neighbourhood, h]

theorem shortest_greatest (tie : Tie) :
    shortest tie ⟨0x7fefffffffffffff⟩ = ⟨17976931348623157, 292⟩ := by
  cases tie <;> decide +kernel

theorem IsModerate.normalize {d : Decimal} (hle : d.toRat ≤ greatestDecimal)
    (hcoefficient : d.coefficient ≤ 10 ^ 17) (hne : d.coefficient ≠ 0) : d.normalize.IsModerate :=
  ⟨(normalize_toRat_le d).trans hle, (Nat.div_le_self _ _).trans hcoefficient,
    fun hzero => absurd hzero (normalize_coefficient_ne_zero hne)⟩

/-- The integers of seventeen places next to the number have at most one digit more. -/
theorem inUnits_value_lt (n : Neighbourhood) (hden : 0 < n.denominator) {places : Nat}
    (hplaces : places < 17) :
    let m := n.inUnits (leadingExponent n.value n.denominator - places)
    m.value / m.denominator < 10 ^ 17 := by
  intro m
  have hpos : 0 < m.denominator := Neighbourhood.inUnits_denominator_pos hden
  have hposRat : (0 : ℚ) < m.denominator := by exact_mod_cast hpos
  have hunit : (0 : ℚ) < 10 ^ (-(leadingExponent n.value n.denominator - places)) :=
    zpow_pos (by norm_num) _
  have hlt : (m.value : ℚ) / m.denominator < 10 ^ 17 := calc
    (m.value : ℚ) / m.denominator = (n.value : ℚ) / n.denominator *
        10 ^ (-(leadingExponent n.value n.denominator - places)) :=
      (Neighbourhood.inUnits_ratio hden).1
    _ < 10 ^ (leadingExponent n.value n.denominator + 1) *
        10 ^ (-(leadingExponent n.value n.denominator - places)) :=
      mul_lt_mul_of_pos_right (lt_leadingExponent hden) hunit
    _ = 10 ^ (places + 1) := by
      rw [← zpow_add₀ (by norm_num), ← zpow_natCast]
      congr 1
      push_cast
      ring
    _ ≤ 10 ^ 17 := pow_le_pow_right₀ (by norm_num) hplaces
  rw [div_lt_iff₀ hposRat] at hlt
  rw [Nat.div_lt_iff_lt_mul hpos]
  exact_mod_cast hlt

theorem toRat_le_of_holds {n : Neighbourhood} (hden : 0 < n.denominator)
    (hhigh : n.high ≤ greatestDecimal * n.denominator) {u : Int} {c : Nat}
    (hholds : (n.inUnits u).holds c = true) : toRat ⟨c, u⟩ ≤ greatestDecimal := by
  have hdenRat : (0 : ℚ) < n.denominator := by exact_mod_cast hden
  have hpos : (0 : ℚ) < (n.inUnits u).denominator := by
    exact_mod_cast Neighbourhood.inUnits_denominator_pos hden
  have hunit : (0 : ℚ) < 10 ^ (-u) := zpow_pos (by norm_num) _
  have hle : (c : ℚ) ≤ greatestDecimal * 10 ^ (-u) := calc
    (c : ℚ) ≤ ((n.inUnits u).high : ℚ) / (n.inUnits u).denominator := by
      rw [le_div_iff₀ hpos]
      exact_mod_cast (Neighbourhood.bounds_of_holds hholds).2
    _ = (n.high : ℚ) / n.denominator * 10 ^ (-u) := (Neighbourhood.inUnits_ratio hden).2
    _ ≤ greatestDecimal * 10 ^ (-u) := by
      refine mul_le_mul_of_nonneg_right ?_ hunit.le
      rw [div_le_iff₀ hdenRat]
      exact_mod_cast hhigh
  calc (c : ℚ) * 10 ^ u ≤ greatestDecimal * 10 ^ (-u) * 10 ^ u :=
        mul_le_mul_of_nonneg_right hle (zpow_pos (by norm_num) _).le
    _ = greatestDecimal := by
        rw [mul_assoc, ← zpow_add₀ (by norm_num), neg_add_cancel, zpow_zero, mul_one]

theorem shortest_isModerate {x : Binary64} (hx : x.isFinite = true) (tie : Tie) :
    (shortest tie x).IsModerate := by
  have hfinite : x.pattern < binary64.infinity := of_decide_eq_true hx
  rw [binary64_infinity] at hfinite
  have hden := neighbourhood_denominator_pos x
  by_cases hgreatest : x.pattern = greatestPattern
  · rw [shortest_congr (y := ⟨0x7fefffffffffffff⟩) (hgreatest.trans (by decide)),
      shortest_greatest]
    refine ⟨?_, by decide, fun h => absurd h (by decide)⟩
    rw [toRat, greatestDecimal, Nat.cast_mul, Nat.cast_pow]
    exact le_of_eq (congrArg _ (zpow_natCast _ 292))
  rcases shortest_cases tie x with hzero | ⟨hne, places, hplaces, c, hc, hshortest⟩
  · rw [hzero]
    exact isModerate_zero
  have hhigh : (neighbourhood x).high ≤ greatestDecimal * (neighbourhood x).denominator := by
    apply neighbourhood_high_le
    rw [greatestPattern] at hgreatest ⊢
    omega
  obtain ⟨hholds, hle⟩ := Neighbourhood.nearestInteger?_spec hc
  have hlow := Neighbourhood.low_inUnits_pos
    (u := leadingExponent (neighbourhood x).value (neighbourhood x).denominator - (places : Nat))
    (neighbourhood_low_pos hne)
  have hcne : c ≠ 0 := by
    rintro rfl
    have hbound := (Neighbourhood.bounds_of_holds hholds).1
    omega
  have hlt := inUnits_value_lt (neighbourhood x) hden hplaces
  rw [hshortest]
  exact .normalize (toRat_le_of_holds hden hhigh hholds) (hle.trans hlt) hcne

end Shortest

section Reading

/-- A decimal that is not too great has a moderate leading exponent. -/
theorem leading_lt {d : Decimal} (h : d.toRat ≤ greatestDecimal) (hne : d.coefficient ≠ 0) :
    d.exponent + ((Nat.toDigits 10 d.coefficient).length - 1 : Nat) < 309 := by
  have hpow : ((10 ^ ((Nat.toDigits 10 d.coefficient).length - 1) : Nat) : ℚ) ≤ d.coefficient := by
    exact_mod_cast (toDigits_bounds hne).1
  have hunit : (0 : ℚ) < 10 ^ d.exponent := zpow_pos (by norm_num) _
  have hgreatest : (greatestDecimal : ℚ) < 10 ^ (309 : Int) := by
    have hlt : greatestDecimal < 10 ^ 309 := by decide +kernel
    exact_mod_cast hlt
  refine (zpow_lt_zpow_iff_right₀ (show (1 : ℚ) < 10 by norm_num)).mp ?_
  calc (10 : ℚ) ^ (d.exponent + ((Nat.toDigits 10 d.coefficient).length - 1 : Nat)) =
        ((10 ^ ((Nat.toDigits 10 d.coefficient).length - 1) : Nat) : ℚ) * 10 ^ d.exponent := by
        rw [add_comm, zpow_add₀ (by norm_num), zpow_natCast]
        push_cast
        rfl
    _ ≤ d.coefficient * 10 ^ d.exponent := mul_le_mul_of_nonneg_right hpow hunit.le
    _ ≤ greatestDecimal := h
    _ < 10 ^ (309 : Int) := hgreatest

theorem round_greatestDecimal :
    binary64.round greatestDecimal 1 < binary64.infinity := by decide +kernel

/-- A decimal that does not exceed the greatest number is read as a finite number. -/
theorem isFinite_toBinary64 {d : Decimal} (h : d.toRat ≤ greatestDecimal) (negative : Bool) :
    (d.toBinary64 negative).isFinite = true := by
  have hzero : (Binary64.ofPattern negative 0).isFinite = true := by
    cases negative <;> decide
  rw [toBinary64]
  split
  case isTrue => exact hzero
  case isFalse hsmall =>
    have hlead := leading_lt h (not_or.mp hsmall).1
    rw [if_neg (by omega)]
    obtain ⟨coefficient, exponent⟩ := d
    cases exponent with
    | ofNat k =>
      refine Binary64.isFinite_ofRatio_of_le Nat.one_pos Nat.one_pos ?_ round_greatestDecimal
      rw [Nat.mul_one, Nat.mul_one]
      have hle : (coefficient : ℚ) * 10 ^ (k : Int) ≤ greatestDecimal := h
      rw [zpow_natCast] at hle
      exact_mod_cast hle
    | negSucc k =>
      refine Binary64.isFinite_ofRatio_of_le (Nat.pow_pos (by decide)) Nat.one_pos ?_
        round_greatestDecimal
      have hpow : (0 : ℚ) < 10 ^ (k + 1) := by positivity
      have hle : (coefficient : ℚ) * 10 ^ Int.negSucc k ≤ greatestDecimal := h
      rw [zpow_negSucc, ← div_eq_mul_inv, div_le_iff₀ hpow] at hle
      rw [Nat.mul_one]
      exact_mod_cast hle

end Reading

end Decimal

end EmuControl.Number
