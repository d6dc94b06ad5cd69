import EmuControl.Proofs.DecimalText
import EmuControl.Proofs.ShortestDecimal
import EmuControl.Proofs.TomlString

/-!
# Plain values of written TOML

Truth values and integers are read back from their text. So is some number from the text of every
floating-point number, though it need not be the number that was written: TOML has words for what is
not finite, and the digits of a finite number do not exceed those of the greatest one, so reading
them does not overflow.
-/
namespace EmuControl.Toml

open EmuControl.Number

section Digits

theorem digitIn_ten {c : Char} (h : c.isDigit = true) :
    digitIn 10 c = some (c.toNat - '0'.toNat) := by
  have hdigit : ('0' ≤ c && c ≤ '9') = true := h
  have hrange : 48 ≤ c.toNat ∧ c.toNat ≤ 57 := by
    simpa [Char.isDigit, UInt32.le_iff_toNat_le] using h
  have hvalue : Text.hexValue? c = some (c.toNat - '0'.toNat) := by
    rw [Text.hexValue?, if_pos hdigit]
  have hlt : c.toNat - '0'.toNat < 10 := by
    change c.toNat - 48 < 10
    omega
  rw [digitIn, hvalue, Option.filter_some, if_pos (decide_eq_true hlt)]

theorem continueDigits_ten {cs : List Char} (h : ∀ c ∈ cs, c.isDigit = true) (acc : Nat) :
    continueDigits 10 acc cs = some (Nat.ofDigitChars 10 cs acc) := by
  induction cs generalizing acc with
  | nil => rfl
  | cons c cs ih =>
    obtain ⟨hc, hcs⟩ := List.forall_mem_cons.mp h
    have hunderscore : c ≠ '_' := by
      rintro rfl
      exact absurd hc (by decide)
    rw [continueDigits, digitIn_ten hc, Option.bind_some, ih hcs, Nat.ofDigitChars_cons,
      Nat.mul_comm]
    exact fun _ _ heq => absurd heq hunderscore

theorem digitsIn_ten {cs : List Char} (h : IsDigits cs) :
    digitsIn 10 cs = some (Nat.ofDigitChars 10 cs 0) := by
  obtain ⟨c, more, rfl⟩ := List.exists_cons_of_ne_nil h.1
  obtain ⟨hc, hmore⟩ := List.forall_mem_cons.mp h.2
  rw [digitsIn, digitIn_ten hc, Option.bind_some, continueDigits_ten hmore,
    Nat.ofDigitChars_cons, Nat.mul_zero, Nat.zero_add]

theorem wholeDigits_eq {cs : List Char} (h : IsWhole cs) :
    wholeDigits cs = some (Nat.ofDigitChars 10 cs 0) := by
  obtain ⟨c, more, rfl⟩ := List.exists_cons_of_ne_nil h.isDigits.1
  by_cases hzero : c = '0'
  · subst hzero
    obtain rfl : more = [] := (List.cons.inj (h.zero rfl)).2
    rfl
  · rw [wholeDigits, digitsIn_ten h.isDigits]
    · exact fun heq => absurd (List.cons.inj heq).1 hzero
    · exact fun _ heq => absurd (List.cons.inj heq).1 hzero

/-- A point is no digit. -/
theorem continueDigits_point {cs : List Char} (h : '.' ∈ cs) (base acc : Nat) :
    continueDigits base acc cs = none := by
  have hpoint : digitIn base '.' = none := rfl
  fun_induction continueDigits base acc cs with
  | case1 => exact absurd h List.not_mem_nil
  | case2 acc c rest ih =>
    rcases List.mem_cons.mp ((List.mem_cons.mp h).resolve_left (by decide)) with rfl | hrest
    · rw [hpoint, Option.bind_none]
    · simp [ih _ hrest]
  | case3 acc c rest _ ih =>
    rcases List.mem_cons.mp h with rfl | hrest
    · rw [hpoint, Option.bind_none]
    · simp [ih _ hrest]

theorem wholeDigits_point {cs : List Char} (h : '.' ∈ cs) : wholeDigits cs = none := by
  have hdigits : digitsIn 10 cs = none := by
    cases cs with
    | nil => rfl
    | cons c more =>
      rcases List.mem_cons.mp h with rfl | hmore
      · rfl
      · rw [digitsIn]
        simp [continueDigits_point hmore]
  fun_cases wholeDigits cs with
  | case1 => exact absurd h (by decide)
  | case2 => rfl
  | case3 => exact hdigits

theorem signed_of_isDigit {c : Char} (h : c.isDigit = true) (more : List Char) :
    signed (c :: more) = (false, c :: more) := by
  rw [signed]
  · rintro _ heq
    exact absurd ((List.cons.inj heq).1 ▸ h) (by decide)
  · rintro _ heq
    exact absurd ((List.cons.inj heq).1 ▸ h) (by decide)

end Digits

/-- A plain value as it is written: characters of such values that stand for the document. -/
structure IsScalarText (text : List Char) (d : Document) : Prop where
  ne_nil : text ≠ []
  chars : ∀ c ∈ text, isScalarChar c = true
  read : scalar? text = some d

section Integers

theorem isScalarChar_of_isDigit {c : Char} (h : c.isDigit = true) : isScalarChar c = true := by
  simp [isScalarChar, Char.isAlphanum, h]

theorem ne_of_isScalarChar {c q : Char} (h : isScalarChar c = true)
    (hq : isScalarChar q = false) : c ≠ q := by
  rintro rfl
  rw [h] at hq
  exact Bool.noConfusion hq

/-- Before a number, the words of truth values need no look. -/
theorem scalar?_number {c : Char} {cs : List Char} (hc : c.isDigit = true ∨ c = '-') :
    scalar? (c :: cs) =
      (integer? (c :: cs)).orElse fun _ =>
        (float? (c :: cs)).orElse fun _ => instant? (c :: cs) := by
  have hword : ∀ w word, w.isDigit = false → w ≠ '-' → c :: cs ≠ w :: word := by
    rintro w word hdigit hminus heq
    obtain ⟨rfl, -⟩ := List.cons.inj heq
    rcases hc with hc | hc
    · exact Bool.noConfusion (hdigit.symm.trans hc)
    · exact hminus hc
  have htrue : c :: cs ≠ "true".toList := hword 't' _ rfl (by decide)
  have hfalse : c :: cs ≠ "false".toList := hword 'f' _ rfl (by decide)
  rw [scalar?, if_neg htrue, if_neg hfalse]

theorem boundedInteger_eq {n : Int} (hlo : -(Nat.pow 2 127 : Int) ≤ n) (hhi : n < Nat.pow 2 128) :
    boundedInteger n = some (.integer n) := by
  rw [boundedInteger, if_pos]
  rw [Bool.and_eq_true, decide_eq_true_eq, decide_eq_true_eq]
  exact ⟨hlo, hhi⟩

/-- Without a mark for another base, an integer is decimal. -/
theorem integer?_unsigned {c : Char} {more : List Char} (hc : c.isDigit = true)
    (hmore : ∀ b ∈ more.head?, b.isDigit = true ∨ b = '.') :
    integer? (c :: more) = (wholeDigits (c :: more)).bind fun n => boundedInteger n := by
  have hbase : ∀ b rest, b.isDigit = false → b ≠ '.' → c :: more ≠ '0' :: b :: rest := by
    rintro b rest hdigit hpoint heq
    obtain ⟨-, rfl⟩ := List.cons.inj heq
    rcases hmore b rfl with hb | hb
    · exact Bool.noConfusion (hdigit.symm.trans hb)
    · exact hpoint hb
  rw [integer?, signed_of_isDigit hc]
  · simp only [if_neg Bool.false_ne_true]
  · exact fun rest => hbase 'x' rest rfl (by decide)
  · exact fun rest => hbase 'o' rest rfl (by decide)
  · exact fun rest => hbase 'b' rest rfl (by decide)

theorem integer?_negative (digits : List Char) :
    integer? ('-' :: digits) = (wholeDigits digits).bind fun n => boundedInteger (-n) := by
  have hsigned : signed ('-' :: digits) = (true, digits) := rfl
  rw [integer?, hsigned]
  · simp only [if_true]
  all_goals exact fun _ heq => absurd (List.cons.inj heq).1 (by decide)

theorem isScalarText_integer {n : Int} (hlo : -(Nat.pow 2 127 : Int) ≤ n)
    (hhi : n < Nat.pow 2 128) : IsScalarText (writeInteger n).toList (.integer n) := by
  cases n with
  | ofNat k =>
    have hwhole := isWhole_toDigits k
    have hread := wholeDigits_eq hwhole
    rw [Nat.ofDigitChars_ten_toDigits] at hread
    rw [writeInteger, writeNatural, String.toList_ofList]
    refine ⟨hwhole.isDigits.1, fun c hc => isScalarChar_of_isDigit (hwhole.isDigits.2 c hc), ?_⟩
    obtain ⟨c, more, hcons⟩ := List.exists_cons_of_ne_nil hwhole.isDigits.1
    rw [hcons] at hread ⊢
    obtain ⟨hc, hmore⟩ := List.forall_mem_cons.mp (hcons ▸ hwhole.isDigits.2)
    have hbounded : boundedInteger (k : Int) = some (.integer (Int.ofNat k)) :=
      boundedInteger_eq hlo hhi
    rw [scalar?_number (.inl hc),
      integer?_unsigned hc fun b hb => .inl (hmore b (List.mem_of_mem_head? hb)), hread,
      Option.bind_some, hbounded]
    rfl
  | negSucc k =>
    have hwhole := isWhole_toDigits (k + 1)
    have hread := wholeDigits_eq hwhole
    rw [Nat.ofDigitChars_ten_toDigits] at hread
    simp only [writeInteger, writeNatural, String.toList_append, String.toList_ofList]
    refine ⟨List.cons_ne_nil _ _, ?_, ?_⟩
    · intro c hc
      rcases List.mem_cons.mp hc with rfl | hc
      · rfl
      · exact isScalarChar_of_isDigit (hwhole.isDigits.2 c hc)
    · have hbounded : boundedInteger (-((k + 1 : Nat) : Int)) = some (.integer (Int.negSucc k)) :=
        boundedInteger_eq hlo hhi
      change scalar? ('-' :: Nat.toDigits 10 (k + 1)) = _
      rw [scalar?_number (.inr rfl), integer?_negative, hread, Option.bind_some, hbounded]
      rfl

end Integers

section Floats

theorem splitAtFirst_cons {p : Char → Bool} {before : List Char} {c : Char}
    (h : ∀ b ∈ before, p b = false) (hc : p c = true) (behind : List Char) :
    splitAtFirst p (before ++ c :: behind) = (before, some behind) := by
  have hspan : (before ++ c :: behind).span (fun b => !p b) = (before, c :: behind) :=
    Text.span_append (fun b hb => by simp [h b hb]) (by simp [hc])
  rw [splitAtFirst, hspan]

theorem splitAtFirst_eq_self {p : Char → Bool} {cs : List Char} (h : ∀ c ∈ cs, p c = false) :
    splitAtFirst p cs = (cs, none) := by
  have hspan : (cs ++ []).span (fun b => !p b) = (cs, []) :=
    Text.span_append (fun c hc => by simp [h c hc]) (by simp)
  rw [List.append_nil] at hspan
  rw [splitAtFirst, hspan]

/-- All digits of a decimal with a point count, and those of the fraction move the point. -/
theorem decimal?_point {whole fraction : List Char} (hwhole : IsWhole whole)
    (hfraction : IsDigits fraction) :
    decimal? (whole ++ '.' :: fraction) =
      some ⟨Nat.ofDigitChars 10 (whole ++ fraction) 0, -fraction.length⟩ := by
  have hletter : ∀ c ∈ whole ++ '.' :: fraction, (c == 'e' || c == 'E') = false := by
    intro c hc
    have hne : c ≠ 'e' ∧ c ≠ 'E' := by
      rcases List.mem_append.mp hc with hc | hc
      · have hdigit := hwhole.isDigits.2 c hc
        constructor <;> rintro rfl <;> exact absurd hdigit (by decide)
      · rcases List.mem_cons.mp hc with rfl | hc
        · decide
        · have hdigit := hfraction.2 c hc
          constructor <;> rintro rfl <;> exact absurd hdigit (by decide)
    simp [hne]
  have hpoint : ∀ c ∈ whole, (c == '.') = false := by
    intro c hc
    have hne : c ≠ '.' := by
      rintro rfl
      exact absurd (hwhole.isDigits.2 _ hc) (by decide)
    simp [hne]
  have hplaces : fraction.filter (· != '_') = fraction := by
    rw [List.filter_eq_self]
    intro c hc
    have hne : c ≠ '_' := by
      rintro rfl
      exact absurd (hfraction.2 _ hc) (by decide)
    simp [hne]
  have hvalue : Nat.ofDigitChars 10 (whole ++ fraction) 0 =
      Nat.ofDigitChars 10 whole 0 * Nat.pow 10 fraction.length +
        Nat.ofDigitChars 10 fraction 0 := by
    rw [Nat.ofDigitChars_append, Nat.mul_comm]
    exact Nat.ofDigitChars_eq_ofDigitChars_zero
  rw [decimal?, splitAtFirst_eq_self hletter]
  simp only [splitAtFirst_cons hpoint (beq_self_eq_true '.'), wholeDigits_eq hwhole,
    digitsIn_ten hfraction, exponent?, hplaces, Option.bind_eq_bind, Option.bind_some]
  rw [hvalue, Int.zero_sub]

/-- A finite number is written as a whole part and a fraction behind its sign. -/
theorem floatText_split {x : Binary64} (hx : x.isFinite = true) :
    ∃ whole fraction, (Decimal.shortest .up x).IsSplit whole fraction ∧
      (floatText x).toList = x.signText.toList ++ (whole ++ '.' :: fraction) := by
  have hnan : x.isNaN = false :=
    decide_eq_false (Nat.not_lt.mpr (Nat.le_of_lt (of_decide_eq_true hx)))
  have hplain : x.plainText = x.signText ++ (Decimal.shortest .up x).positional := by
    rw [Binary64.plainText, hnan, hx]
    rfl
  have hsign : '.' ∉ x.signText.toList := by
    rw [Binary64.signText]
    split <;> decide
  obtain ⟨whole, fraction, hsplit, htext⟩ :=
    Decimal.positional_split (Decimal.shortest_isModerate hx .up).exponent_of_zero
  refine ⟨whole, fraction, hsplit, ?_⟩
  -- The digits have a point of their own exactly if the exponent is negative.
  have hpoint : x.plainText.toList.contains '.' =
      !decide (0 ≤ (Decimal.shortest .up x).exponent) := by
    by_cases hexponent : 0 ≤ (Decimal.shortest .up x).exponent
    · have hplaces := hsplit.places
      rw [if_pos hexponent] at hplaces htext
      rw [String.toList_append] at htext
      obtain ⟨hwhole, -⟩ := List.append_inj' htext (by simp; omega)
      have hnone : '.' ∉ whole := fun hmem => absurd (hsplit.isWhole.isDigits.2 _ hmem) (by decide)
      simp [hplain, hwhole, hsign, hnone, hexponent]
    · rw [if_neg hexponent, String.append_empty] at htext
      simp [hplain, htext, hexponent]
  have hfloat : floatText x = x.signText ++ ((Decimal.shortest .up x).positional ++
      if 0 ≤ (Decimal.shortest .up x).exponent then ".0" else "") := by
    rw [floatText, hnan, hx, hpoint, hplain, String.append_assoc]
    by_cases hexponent : 0 ≤ (Decimal.shortest .up x).exponent <;> simp [hexponent]
  rw [hfloat, String.toList_append, htext]

/-- The digits of both parts stand for the decimal. -/
theorem toRat_of_isSplit {d : Decimal} {whole fraction : List Char} (h : d.IsSplit whole fraction) :
    Decimal.toRat ⟨Nat.ofDigitChars 10 (whole ++ fraction) 0, -fraction.length⟩ = d.toRat := by
  have hnonneg : 0 ≤ d.exponent + fraction.length := by
    rw [h.places]
    split <;> omega
  have hpow : (10 : ℚ) ^ (d.exponent + fraction.length).toNat =
      10 ^ (d.exponent + fraction.length) := by
    rw [← zpow_natCast, Int.toNat_of_nonneg hnonneg]
  rw [Decimal.toRat, Decimal.toRat, h.value]
  push_cast
  rw [hpow, mul_assoc, ← zpow_add₀ (by norm_num), add_neg_cancel_right]

theorem float?_of_isSplit {d : Decimal} (hd : d.toRat ≤ greatestDecimal)
    {whole fraction : List Char} (h : d.IsSplit whole fraction) {cs : List Char} {negative : Bool}
    (hsigned : signed cs = (negative, whole ++ '.' :: fraction)) :
    ∃ y, float? cs = some (.float y) := by
  have hdecimal := decimal?_point h.isWhole h.isDigits
  have hfinite := Decimal.isFinite_toBinary64 ((toRat_of_isSplit h).trans_le hd) negative
  obtain ⟨c, more, rfl⟩ := List.exists_cons_of_ne_nil h.isWhole.isDigits.1
  have hc := h.isWhole.isDigits.2 c List.mem_cons_self
  have hword : ∀ w word, w.isDigit = false → c :: more ++ '.' :: fraction ≠ w :: word := by
    rintro w word hw heq
    obtain ⟨rfl, -⟩ := List.cons.inj heq
    exact Bool.noConfusion (hw.symm.trans hc)
  have hinf : c :: more ++ '.' :: fraction ≠ "inf".toList := hword 'i' _ rfl
  have hnan : c :: more ++ '.' :: fraction ≠ "nan".toList := hword 'n' _ rfl
  rw [float?, hsigned]
  dsimp only
  rw [if_neg hinf, if_neg hnan, hdecimal, Option.bind_some, if_pos hfinite]
  exact ⟨_, rfl⟩

theorem exists_isScalarText_finite {x : Binary64} (hx : x.isFinite = true) :
    ∃ y, IsScalarText (floatText x).toList (.float y) := by
  obtain ⟨whole, fraction, hsplit, htext⟩ := floatText_split hx
  have hle := (Decimal.shortest_isModerate hx .up).toRat_le
  have hchars : ∀ c ∈ whole ++ '.' :: fraction, c.isDigit = true ∨ c = '.' := by
    intro c hc
    rcases List.mem_append.mp hc with hc | hc
    · exact .inl (hsplit.isWhole.isDigits.2 c hc)
    · exact (List.mem_cons.mp hc).symm.imp_left (hsplit.isDigits.2 c)
  have hscalar : ∀ c ∈ whole ++ '.' :: fraction, isScalarChar c = true := by
    intro c hc
    rcases hchars c hc with hc | rfl
    · exact isScalarChar_of_isDigit hc
    · rfl
  have hwhole : wholeDigits (whole ++ '.' :: fraction) = none := wholeDigits_point (by simp)
  rw [htext, Binary64.signText]
  cases x.isNegative with
  | true =>
    have hsigned : signed ('-' :: (whole ++ '.' :: fraction)) = (true, whole ++ '.' :: fraction) :=
      rfl
    obtain ⟨y, hfloat⟩ := float?_of_isSplit hle hsplit hsigned
    refine ⟨y, List.cons_ne_nil _ _, List.forall_mem_cons.mpr ⟨rfl, hscalar⟩, ?_⟩
    change scalar? ('-' :: (whole ++ '.' :: fraction)) = _
    rw [scalar?_number (.inr rfl), integer?_negative, hwhole, hfloat]
    rfl
  | false =>
    obtain ⟨c, more, rfl⟩ := List.exists_cons_of_ne_nil hsplit.isWhole.isDigits.1
    have hc := hsplit.isWhole.isDigits.2 c List.mem_cons_self
    obtain ⟨y, hfloat⟩ := float?_of_isSplit hle hsplit (signed_of_isDigit hc _)
    refine ⟨y, List.cons_ne_nil _ _, hscalar, ?_⟩
    change float? (c :: (more ++ '.' :: fraction)) = _ at hfloat
    change wholeDigits (c :: (more ++ '.' :: fraction)) = none at hwhole
    change scalar? (c :: (more ++ '.' :: fraction)) = _
    rw [scalar?_number (.inl hc), integer?_unsigned hc, hwhole, hfloat]
    · rfl
    · exact fun b hb => hchars b (List.mem_cons_of_mem _ (List.mem_of_mem_head? hb))

/-- Numbers that are not finite have words of their own. -/
theorem exists_isScalarText_word {x : Binary64} (hx : x.isFinite = false) :
    ∃ y, IsScalarText (floatText x).toList (.float y) := by
  cases hnan : x.isNaN with
  | true =>
    rw [floatText, hnan, if_pos rfl]
    exact ⟨_, List.cons_ne_nil _ _, List.all_eq_true.mp rfl, rfl⟩
  | false =>
    have hword : floatText x = x.signText ++ "inf" := by
      rw [floatText, Binary64.plainText, hnan, hx]
      rfl
    rw [hword, Binary64.signText]
    cases x.isNegative with
    | true => exact ⟨_, List.cons_ne_nil _ _, List.all_eq_true.mp rfl, rfl⟩
    | false => exact ⟨_, List.cons_ne_nil _ _, List.all_eq_true.mp rfl, rfl⟩

/-- Every number is written as some number. -/
theorem exists_isScalarText_float (x : Binary64) :
    ∃ y, IsScalarText (floatText x).toList (.float y) := by
  cases hx : x.isFinite with
  | true => exact exists_isScalarText_finite hx
  | false => exact exists_isScalarText_word hx

/-- The text of a number stands for what it is read as. -/
theorem isScalarText_float {x : Binary64} {d : Document}
    (h : scalar? (floatText x).toList = some d) : IsScalarText (floatText x).toList d := by
  obtain ⟨y, htext⟩ := exists_isScalarText_float x
  exact Option.some.inj (htext.read.symm.trans h) ▸ htext

end Floats

theorem isScalarText_bool (b : Bool) : IsScalarText (inlineText (.bool b)).toList (.bool b) := by
  rw [inlineText]
  cases b with
  | true => exact ⟨List.cons_ne_nil _ _, List.all_eq_true.mp rfl, rfl⟩
  | false => exact ⟨List.cons_ne_nil _ _, List.all_eq_true.mp rfl, rfl⟩

theorem takeScalar_append {text rest : List Char} (h : ∀ c ∈ text, isScalarChar c = true)
    (hrest : Stops rest) : takeScalar (text ++ rest) = (text, rest) := by
  have hstop : ∀ c ∈ rest.head?, isScalarChar c = false := by
    intro c hc
    rcases hrest c hc with rfl | rfl | rfl <;> rfl
  rw [takeScalar, Text.span_append h hstop]
  cases rest with
  | nil => rfl
  | cons c rest => rcases hrest c rfl with rfl | rfl | rfl <;> rfl

end EmuControl.Toml
