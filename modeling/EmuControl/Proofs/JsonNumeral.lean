import EmuControl.Json.Token
import EmuControl.Json.Writer
import EmuControl.Proofs.DecimalText
import EmuControl.Proofs.ShortestDecimal

/-!
# Numerals of written JSON

A number that is written is read as the numeral with its digits, whatever stands behind it, as long
as that is a comma, a line end or nothing.

What the numeral of a floating-point number stands for is a matter of rounding, and it need not be
the number that was written. But it is a number: the digits are few enough to be taken as one
integer, and scaling that integer by its power of ten does not overflow. Scaling is monotonic, so
this has to be known only for the greatest integer that can occur with each power.
-/
namespace EmuControl.Json

open EmuControl.Number

/-- A number ends before this text. -/
def Stops (rest : List Char) : Prop :=
  ∀ c ∈ rest.head?, c = ',' ∨ c = '\n'

section Numbers

/-- The value of a decimal digit. -/
def digitOf (c : Char) : Nat := c.toNat - '0'.toNat

theorem takeDigitRun_append {digits rest : List Char} (hdigits : ∀ c ∈ digits, c.isDigit = true)
    (hrest : ∀ c ∈ rest.head?, c.isDigit = false) :
    takeDigitRun (digits ++ rest) = (digits.map digitOf, rest) := by
  induction digits with
  | nil =>
    cases rest with
    | nil => rfl
    | cons c rest =>
      have hc : digitValue? c = none := by
        have hdigit := hrest c rfl
        rw [Option.eq_none_iff_forall_ne_some]
        intro d hd
        rw [(digitValue?_eq_some_iff.mp hd).1] at hdigit
        exact Bool.noConfusion hdigit
      rw [List.nil_append, takeDigitRun, hc]
      rfl
  | cons c digits ih =>
    obtain ⟨hc, hdigits⟩ := List.forall_mem_cons.mp hdigits
    have hvalue : digitValue? c = some (digitOf c) := digitValue?_eq_some_iff.mpr ⟨hc, rfl⟩
    rw [List.cons_append, takeDigitRun, hvalue, ih hdigits]
    rfl

theorem digitsValue_map (digits : List Char) :
    digitsValue (digits.map digitOf) = Nat.ofDigitChars 10 digits 0 := by
  have hfold : ∀ acc, (digits.map digitOf).foldl (fun acc d => acc * 10 + d) acc =
      Nat.ofDigitChars 10 digits acc := by
    induction digits with
    | nil => exact fun _ => rfl
    | cons c digits ih =>
      intro acc
      rw [List.map_cons, List.foldl_cons, ih, Nat.ofDigitChars_cons, Nat.mul_comm]
      rfl
  exact hfold 0

theorem lexWhole_append {whole rest : List Char} (hwhole : IsWhole whole)
    (hrest : ∀ c ∈ rest.head?, c.isDigit = false) :
    lexWhole (whole ++ rest) = some (whole.map digitOf, rest) := by
  rw [lexWhole, takeDigitRun_append hwhole.isDigits.2 hrest]
  cases whole with
  | nil => exact absurd rfl hwhole.isDigits.1
  | cons c digits =>
    by_cases hc : c = '0'
    · subst hc
      obtain rfl : digits = [] := (List.cons.inj (hwhole.zero rfl)).2
      rfl
    · have hdigit := hwhole.isDigits.2 c List.mem_cons_self
      have hpos : 0 < digitOf c := by
        have hlo : 48 ≤ c.toNat := by
          simp only [Char.isDigit, Bool.and_eq_true, decide_eq_true_eq, UInt32.le_iff_toNat_le]
            at hdigit
          exact hdigit.1
        have hne : c.toNat ≠ 48 := fun heq => hc (Char.toNat_inj.mp heq)
        exact Nat.sub_pos_of_lt (Nat.lt_of_le_of_ne hlo (Ne.symm hne))
      obtain ⟨d, hd⟩ := Nat.exists_eq_succ_of_ne_zero hpos.ne'
      rw [List.map_cons, hd]
      rfl

/-- Nothing, or a point with digits behind it. -/
inductive IsFraction : List Char → Option (List Nat) → Prop
  | absent : IsFraction [] none
  | digits {cs : List Char} : IsDigits cs → IsFraction ('.' :: cs) (some (cs.map digitOf))

/-- Nothing, or a mark, a sign and digits. -/
inductive IsExponent : List Char → Option (Bool × List Nat) → Prop
  | absent : IsExponent [] none
  | positive {cs : List Char} : IsDigits cs →
      IsExponent ('e' :: '+' :: cs) (some (false, cs.map digitOf))
  | negative {cs : List Char} : IsDigits cs →
      IsExponent ('e' :: '-' :: cs) (some (true, cs.map digitOf))

/-- A number without its sign, and the numeral that it is. -/
inductive IsNumber : List Char → Numeral → Prop
  | parts {whole fraction exponent : List Char} {f : Option (List Nat)}
      {e : Option (Bool × List Nat)} (negative : Bool) : IsWhole whole → IsFraction fraction f →
      IsExponent exponent e →
      IsNumber (whole ++ (fraction ++ exponent)) ⟨negative, whole.map digitOf, f, e⟩

theorem Stops.not_digit {rest : List Char} (h : Stops rest) :
    ∀ c ∈ rest.head?, c.isDigit = false := by
  intro c hc
  rcases h c hc with rfl | rfl <;> rfl

theorem lexExponent_append {exponent rest : List Char} {e : Option (Bool × List Nat)}
    (h : IsExponent exponent e) (hrest : Stops rest) :
    lexExponent (exponent ++ rest) = some (e, rest) := by
  cases h with
  | absent =>
    cases rest with
    | nil => rfl
    | cons c rest => rcases hrest c rfl with rfl | rfl <;> rfl
  | @positive cs hcs =>
    obtain ⟨c, digits, rfl⟩ := List.exists_cons_of_ne_nil hcs.1
    have hrun := takeDigitRun_append hcs.2 hrest.not_digit
    simp only [List.cons_append] at hrun ⊢
    rw [lexExponent, lexSignedDigits, hrun]
    rfl
  | @negative cs hcs =>
    obtain ⟨c, digits, rfl⟩ := List.exists_cons_of_ne_nil hcs.1
    have hrun := takeDigitRun_append hcs.2 hrest.not_digit
    simp only [List.cons_append] at hrun ⊢
    rw [lexExponent, lexSignedDigits, hrun]
    rfl

/-- The text behind a whole part and a fraction: an exponent, or what ends the number. -/
theorem IsExponent.head_append {exponent rest : List Char} {e : Option (Bool × List Nat)}
    (h : IsExponent exponent e) (hrest : Stops rest) :
    ∀ c ∈ (exponent ++ rest).head?, c = 'e' ∨ c = ',' ∨ c = '\n' := by
  intro c hc
  cases h with
  | absent => exact .inr (hrest c hc)
  | positive => exact .inl (Option.some.inj hc).symm
  | negative => exact .inl (Option.some.inj hc).symm

theorem lexFraction_append {fraction rest : List Char} {f : Option (List Nat)}
    (h : IsFraction fraction f) (hrest : ∀ c ∈ rest.head?, c = 'e' ∨ c = ',' ∨ c = '\n') :
    lexFraction (fraction ++ rest) = some (f, rest) := by
  cases h with
  | absent =>
    cases rest with
    | nil => rfl
    | cons c rest => rcases hrest c rfl with rfl | rfl | rfl <;> rfl
  | @digits cs hcs =>
    have hstop : ∀ c ∈ rest.head?, c.isDigit = false := by
      intro c hc
      rcases hrest c hc with rfl | rfl | rfl <;> rfl
    obtain ⟨c, digits, rfl⟩ := List.exists_cons_of_ne_nil hcs.1
    have hrun := takeDigitRun_append hcs.2 hstop
    simp only [List.cons_append] at hrun ⊢
    rw [lexFraction, hrun]
    rfl

/-- A number is read to its end, and what it is does not depend on what stands behind it. -/
theorem lexNumber_append {cs rest : List Char} {n : Numeral} (h : IsNumber cs n)
    (hrest : Stops rest) : lexNumber n.negative (cs ++ rest) = some (n, rest) := by
  cases h with
  | @parts whole fraction exponent f e negative hwhole hfraction hexponent =>
    have hbehind := hexponent.head_append hrest
    have hstop : ∀ c ∈ (fraction ++ (exponent ++ rest)).head?, c.isDigit = false := by
      intro c hc
      cases hfraction with
      | absent => rcases hbehind c hc with rfl | rfl | rfl <;> rfl
      | digits =>
        obtain rfl : '.' = c := Option.some.inj hc
        rfl
    rw [List.append_assoc, List.append_assoc, lexNumber, lexWhole_append hwhole hstop]
    simp only [Option.bind_eq_bind, Option.bind_some, lexFraction_append hfraction hbehind,
      lexExponent_append hexponent hrest]

end Numbers

section Values

theorem le_foldl_digits (digits : List Nat) (acc : Nat) :
    acc ≤ digits.foldl (fun acc d => acc * 10 + d) acc := by
  induction digits generalizing acc with
  | nil => exact Nat.le_refl acc
  | cons d digits ih =>
    refine Nat.le_trans ?_ (ih (acc * 10 + d))
    omega

/-- Digits that make up an integer of 64 bits are all taken up. -/
theorem takeDigits_eq {digits : List Nat} {acc : Nat}
    (h : digits.foldl (fun acc d => acc * 10 + d) acc ≤ maxSignificand) :
    takeDigits acc digits = (digits.foldl (fun acc d => acc * 10 + d) acc, []) := by
  induction digits generalizing acc with
  | nil => rfl
  | cons d digits ih =>
    rw [List.foldl_cons] at h ⊢
    rw [takeDigits, if_pos ((le_foldl_digits digits _).trans h), ih h]

theorem multiplied_unfolded : multiplied = fun x k =>
    match x.magnitude with
    | (n, d) => match powerOfTen k with
      | (pn, pd) => Binary64.ofRatio false (n * pn) (d * pd) := rfl

theorem ratio_of_pairs (ratio : Nat → Nat → Binary64) (m p : Nat × Nat) :
    (match m with
      | (n, d) => match p with
        | (pn, pd) => ratio (n * pn) (d * pd)) = ratio (m.1 * p.1) (m.2 * p.2) := rfl

/-- The product of two fractions. The pairs are taken apart while they are variables, since a power
of ten cannot be computed as long as its exponent is one. -/
theorem multiplied_eq (x : Binary64) (k : Nat) :
    multiplied x k = .ofRatio false (x.magnitude.1 * (powerOfTen k).1)
      (x.magnitude.2 * (powerOfTen k).2) :=
  (congrFun (congrFun multiplied_unfolded x) k).trans
    (ratio_of_pairs (.ofRatio false) x.magnitude (powerOfTen k))

theorem multiplied_isFinite_of_le {s s' k k' : Nat} (hs : s ≤ s') (hk : k ≤ k')
    (h : (multiplied (.ofRatio false s' 1) k').isFinite = true) :
    (multiplied (.ofRatio false s 1) k).isFinite = true := by
  have hsteps : ∀ {a b : Nat}, a ≤ b →
      BinaryFormat.binary64.steps (BinaryFormat.binary64.round a 1) ≤
        BinaryFormat.binary64.steps (BinaryFormat.binary64.round b 1) := fun hab =>
    BinaryFormat.steps_le_steps
      (BinaryFormat.round_le_round Nat.one_pos Nat.one_pos (Nat.mul_le_mul_right 1 hab))
  have hpow : Nat.pow 10 k ≤ Nat.pow 10 k' := Nat.pow_le_pow_right (by decide) hk
  obtain ⟨unit, hunit, hmagnitude⟩ := Binary64.exists_unit
  rw [multiplied_eq, powerOfTen, hmagnitude, hmagnitude, Binary64.ofRatio_pattern,
    Binary64.ofRatio_pattern] at h ⊢
  rw [Binary64.isFinite, Binary64.ofRatio_pattern, decide_eq_true_eq] at h
  have hpos : 0 < unit * unit := Nat.mul_pos hunit hunit
  exact Binary64.isFinite_ofRatio_of_le hpos hpos
    (Nat.mul_le_mul_right _ (Nat.mul_le_mul (hsteps hs) (hsteps hpow))) h

/-- The greatest integers that occur with the powers of ten. -/
theorem multiplied_isFinite :
    (multiplied (.ofRatio false (10 ^ 17) 1) 291).isFinite = true ∧ ∀ i < 17,
      (multiplied (.ofRatio false (17976931348623157 / 10 ^ i) 1) (292 + i)).isFinite = true := by
  decide +kernel

theorem exists_scaled {s : Nat} {e : Int} (hs : s ≤ 10 ^ 17)
    (h : 0 ≤ e → s * 10 ^ e.toNat ≤ greatestDecimal) : ∃ y, scaled s e = some y := by
  obtain ⟨hlow, hhigh⟩ := multiplied_isFinite
  unfold scaled
  dsimp only
  split
  case isTrue => exact ⟨_, rfl⟩
  case isFalse hne =>
    cases e with
    | negSucc k =>
      dsimp only
      split_ifs <;> exact ⟨_, rfl⟩
    | ofNat k =>
      have hle : s * 10 ^ k ≤ greatestDecimal := h (Int.natCast_nonneg k)
      have hfinite : k ≤ maxPower ∧ (multiplied (.ofRatio false s 1) k).isFinite = true := by
        rcases Nat.lt_or_ge k 292 with hk | hk
        · exact ⟨by rw [maxPower]; omega, multiplied_isFinite_of_le hs (by omega) hlow⟩
        · obtain ⟨i, rfl⟩ := Nat.exists_eq_add_of_le hk
          have hsi : s * 10 ^ i ≤ 17976931348623157 := by
            refine Nat.le_of_mul_le_mul_right (?_ : _ ≤ greatestDecimal) (by positivity)
            calc s * 10 ^ i * 10 ^ 292 = s * 10 ^ (292 + i) := by
                  rw [Nat.mul_assoc, ← Nat.pow_add, Nat.add_comm i]
              _ ≤ greatestDecimal := hle
          have hi : i < 17 := by
            by_contra hge
            have hpow : 10 ^ 17 ≤ 10 ^ i := Nat.pow_le_pow_right (by decide) (by omega)
            have hmul : 1 * 10 ^ i ≤ s * 10 ^ i :=
              Nat.mul_le_mul_right _ (Nat.pos_of_ne_zero hne)
            omega
          refine ⟨by rw [maxPower]; omega, multiplied_isFinite_of_le ?_ le_rfl (hhigh i hi)⟩
          exact (Nat.le_div_iff_mul_le (Nat.pow_pos (by decide))).mpr hsi
      dsimp only
      rw [if_pos hfinite.1, if_pos hfinite.2]
      exact ⟨_, rfl⟩

namespace Numeral

/-- The digits behind the point. -/
def places (n : Numeral) : List Nat :=
  n.fraction.getD []

/-- The integer that all digits make up. -/
def digits (n : Numeral) : Nat :=
  digitsValue (n.whole ++ n.places)

theorem magnitude?_eq {n : Numeral} (h : n.digits ≤ maxSignificand) :
    n.magnitude? =
      if exponentOverflows n.exponent then
        if n.digits = 0 || (n.exponent.map (·.1)).getD false then some (.ofPattern false 0)
        else none
      else scaled n.digits (totalExponent (-(n.places.length : Int)) n.exponent) := by
  have hdigits : n.digits =
      n.places.foldl (fun acc d => acc * 10 + d) (digitsValue n.whole) := by
    rw [digits, digitsValue, List.foldl_append]
    rfl
  rw [hdigits] at h ⊢
  have hwhole : takeDigits 0 n.whole = (digitsValue n.whole, []) :=
    takeDigits_eq ((le_foldl_digits n.places _).trans h)
  have hplaces := takeDigits_eq h
  rw [places] at hplaces ⊢
  simp only [magnitude?, hwhole, hplaces, List.length_nil, Nat.sub_zero, Int.natCast_zero,
    Int.zero_sub]

/-- The numeral is a floating-point one, and what it is rounded from is within the range. -/
structure IsModerate (n : Numeral) : Prop where
  isFloat : (n.fraction.isSome || n.exponent.isSome) = true
  digits_le : n.digits ≤ 10 ^ 17
  exponent : exponentOverflows n.exponent = true → (n.exponent.map (·.1)).getD false = true
  scaled_le : 0 ≤ totalExponent (-(n.places.length : Int)) n.exponent →
    n.digits * 10 ^ (totalExponent (-(n.places.length : Int)) n.exponent).toNat ≤ greatestDecimal

theorem IsModerate.exists_value {n : Numeral} (h : n.IsModerate) : ∃ y, n.value = .float y := by
  have hmagnitude : ∃ y, n.magnitude? = some y := by
    rw [magnitude?_eq (h.digits_le.trans (by decide))]
    split
    case isTrue hoverflow =>
      rw [h.exponent hoverflow, Bool.or_true, if_pos rfl]
      exact ⟨_, rfl⟩
    case isFalse => exact exists_scaled h.digits_le h.scaled_le
  obtain ⟨y, hy⟩ := hmagnitude
  simp only [value, h.isFloat, if_true, hy]
  exact ⟨_, rfl⟩

end Numeral

end Values

section FloatTexts

/-- With digits behind a point and no exponent, the number is not scaled up. -/
theorem isModerate_of_places {n : Numeral} {fraction : List Nat}
    (hfraction : n.fraction = some fraction) (hne : fraction ≠ [])
    (hexponent : n.exponent = none) (hdigits : n.digits ≤ 10 ^ 17) : n.IsModerate := by
  have hlength : 0 < n.places.length := by
    rw [Numeral.places, hfraction, Option.getD_some]
    exact List.length_pos_iff.mpr hne
  refine ⟨by rw [hfraction]; rfl, hdigits, fun h => ?_, fun h => ?_⟩
  · rw [hexponent] at h
    cases h
  · rw [hexponent, totalExponent] at h
    omega

theorem positional_isNumber {d : Decimal} (h : d.IsModerate) (hne : d.coefficient ≠ 0)
    (hlead : d.exponent + ((Nat.toDigits 10 d.coefficient).length - 1 : Nat) ≤ 15)
    (negative : Bool) :
    ∃ n, n.negative = negative ∧ n.IsModerate ∧
      IsNumber (d.positional ++ if 0 ≤ d.exponent then ".0" else "").toList n := by
  obtain ⟨whole, fraction, hsplit, htext⟩ := Decimal.positional_split h.exponent_of_zero
  refine ⟨⟨negative, whole.map digitOf, some (fraction.map digitOf), none⟩, rfl,
    isModerate_of_places rfl (by simpa using hsplit.isDigits.1) rfl ?_, ?_⟩
  · have hdigits : Numeral.digits
        ⟨negative, whole.map digitOf, some (fraction.map digitOf), none⟩ =
          d.coefficient * 10 ^ (d.exponent + fraction.length).toNat := by
      rw [Numeral.digits, Numeral.places, Option.getD_some, ← List.map_append, digitsValue_map,
        hsplit.value]
    rw [hdigits, hsplit.places]
    split
    case isTrue hexponent =>
      have hpos : 0 < (Nat.toDigits 10 d.coefficient).length :=
        List.length_pos_iff.mpr (isDigits_toDigits _).1
      calc d.coefficient * 10 ^ (d.exponent + 1).toNat ≤
            10 ^ (Nat.toDigits 10 d.coefficient).length * 10 ^ (d.exponent + 1).toNat :=
            Nat.mul_le_mul_right _ (toDigits_bounds hne).2.le
        _ = 10 ^ ((Nat.toDigits 10 d.coefficient).length + (d.exponent + 1).toNat) :=
            (Nat.pow_add ..).symm
        _ ≤ 10 ^ 17 := Nat.pow_le_pow_right (by decide) (by omega)
    case isFalse =>
      have hnone : (d.exponent + -d.exponent).toNat = 0 := by omega
      rw [hnone, Nat.pow_zero, Nat.mul_one]
      exact h.coefficient_le
  · have hnumber := IsNumber.parts negative hsplit.isWhole (.digits hsplit.isDigits) .absent
    rwa [List.append_nil, ← htext] at hnumber

/-- A decimal with one digit before the point and an exponent is scaled by its own exponent. -/
theorem isModerate_of_exponent {d : Decimal} (h : d.IsModerate) (hne : d.coefficient ≠ 0)
    {n : Numeral} (hdigits : n.digits = d.coefficient)
    (hplaces : n.places.length = (Nat.toDigits 10 d.coefficient).length - 1)
    (hexponent : n.exponent =
      let exponent := d.exponent + ((Nat.toDigits 10 d.coefficient).length - 1 : Nat)
      some (decide (exponent < 0), (Nat.toDigits 10 exponent.natAbs).map digitOf)) :
    n.IsModerate := by
  have hleading := Decimal.leading_lt h.toRat_le hne
  generalize hlead : d.exponent + ((Nat.toDigits 10 d.coefficient).length - 1 : Nat) = lead
    at hexponent hleading
  have hvalue : digitsValue ((Nat.toDigits 10 lead.natAbs).map digitOf) = lead.natAbs := by
    rw [digitsValue_map, Nat.ofDigitChars_ten_toDigits]
  refine ⟨by rw [hexponent]; exact Bool.or_true _, hdigits ▸ h.coefficient_le, ?_, ?_⟩
  · rw [hexponent]
    intro hoverflow
    rw [exponentOverflows, hvalue, maxExponent, decide_eq_true_eq] at hoverflow
    exact decide_eq_true (by omega)
  · rw [hexponent, hplaces, hdigits, totalExponent, hvalue, maxExponent]
    intro hnonneg
    -- Only an exponent that is not negative gets here, and it is small enough to be computed with.
    by_cases hneg : lead < 0
    · rw [decide_eq_true hneg, if_pos rfl] at hnonneg
      omega
    · rw [decide_eq_false hneg, if_neg Bool.false_ne_true] at hnonneg ⊢
      have htotal : min (-(((Nat.toDigits 10 d.coefficient).length - 1 : Nat) : Int) +
          min (lead.natAbs : Int) (2147483647 : Nat)) 2147483647 = d.exponent := by omega
      rw [htotal] at hnonneg ⊢
      obtain ⟨k, hk⟩ := Int.eq_ofNat_of_zero_le hnonneg
      have hle := h.toRat_le
      rw [Decimal.toRat, hk, zpow_natCast] at hle
      rw [hk, Int.toNat_natCast]
      exact_mod_cast hle

theorem scientific_isNumber {d : Decimal} (h : d.IsModerate) (hne : d.coefficient ≠ 0)
    (negative : Bool) :
    ∃ n, n.negative = negative ∧ n.IsModerate ∧ IsNumber d.scientific.toList n := by
  have hdigits := isDigits_toDigits d.coefficient
  obtain ⟨c, more, hcons⟩ := List.exists_cons_of_ne_nil hdigits.1
  rw [hcons] at hdigits
  have hwhole : IsWhole [c] := by
    refine ⟨⟨List.cons_ne_nil _ _, ?_⟩, fun heq => by rw [Option.some.inj heq]⟩
    simpa using hdigits.2 c List.mem_cons_self
  have hfraction : IsFraction (if more.isEmpty then [] else '.' :: more)
      (if more.isEmpty then none else some (more.map digitOf)) := by
    cases more with
    | nil => exact .absent
    | cons e more => exact .digits ⟨List.cons_ne_nil _ _, fun f hf => hdigits.2 f (by simp [hf])⟩
  have hplaces : (if more.isEmpty then none else some (more.map digitOf)).getD [] =
      more.map digitOf := by
    cases more <;> rfl
  generalize hexponent : d.exponent + ((Nat.toDigits 10 d.coefficient).length - 1 : Nat) = exponent
  have hsigned : IsExponent ((if exponent < 0 then ['e', '-'] else ['e', '+']) ++
      Nat.toDigits 10 exponent.natAbs)
      (some (decide (exponent < 0), (Nat.toDigits 10 exponent.natAbs).map digitOf)) := by
    by_cases hneg : exponent < 0
    · rw [if_pos hneg, decide_eq_true hneg]
      exact .negative (isDigits_toDigits _)
    · rw [if_neg hneg, decide_eq_false hneg]
      exact .positive (isDigits_toDigits _)
  refine ⟨⟨negative, [c].map digitOf, if more.isEmpty then none else some (more.map digitOf),
    some (decide (exponent < 0), (Nat.toDigits 10 exponent.natAbs).map digitOf)⟩, rfl,
    isModerate_of_exponent h hne ?_ ?_ ?_, ?_⟩
  · rw [Numeral.digits, Numeral.places, hplaces, ← List.map_append, digitsValue_map,
      List.singleton_append, ← hcons, Nat.ofDigitChars_ten_toDigits]
  · rw [Numeral.places, hplaces, List.length_map, hcons]
    rfl
  · rw [hexponent]
  · have hmark : (if exponent < 0 then "e-" else "e+").toList =
        if exponent < 0 then ['e', '-'] else ['e', '+'] := by
      split <;> rfl
    have htext : d.scientific.toList = [c] ++ ((if more.isEmpty then [] else '.' :: more) ++
        ((if exponent < 0 then ['e', '-'] else ['e', '+']) ++
          Nat.toDigits 10 exponent.natAbs)) := by
      rw [hcons] at hexponent
      rw [Decimal.scientific, hcons]
      simp only [hexponent, String.toList_append, String.toList_ofList, hmark]
      cases more <;> simp
    rw [htext]
    exact .parts negative hwhole hfraction hsigned

/-- A finite number is written with a sign if it is negative, and otherwise by digits. -/
theorem floatText_isNumber {x : Binary64} (hx : x.isFinite = true) :
    ∃ body, (floatText x).toList = (if x.isNegative then ['-'] else []) ++ body ∧
      ∃ n, n.negative = x.isNegative ∧ n.IsModerate ∧ IsNumber body n := by
  have hmoderate := Decimal.shortest_isModerate hx .even
  have hsign : x.signText.toList = if x.isNegative then ['-'] else [] := by
    rw [Binary64.signText]
    split <;> rfl
  rw [floatText, hx, Bool.not_true, if_neg Bool.false_ne_true, String.toList_append, hsign]
  refine ⟨_, rfl, ?_⟩
  split
  case isTrue =>
    have hzero : IsNumber ['0', '.', '0'] ⟨x.isNegative, [0], some [0], none⟩ :=
      .parts x.isNegative isWhole_zero (.digits (isDigits_toDigits 0)) .absent
    exact ⟨_, rfl, isModerate_of_places rfl (List.cons_ne_nil _ _) rfl (Nat.zero_le _), hzero⟩
  case isFalse hne =>
    split
    case isTrue hlead =>
      rw [Bool.and_eq_true, decide_eq_true_eq, decide_eq_true_eq] at hlead
      exact positional_isNumber hmoderate hne hlead.2 x.isNegative
    case isFalse => exact scientific_isNumber hmoderate hne x.isNegative

end FloatTexts

end EmuControl.Json
