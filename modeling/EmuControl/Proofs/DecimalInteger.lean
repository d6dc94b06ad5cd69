import EmuControl.Mapping.Error
import Mathlib.Data.List.DropRight
import Mathlib.Data.List.TakeDrop

/-!
# Integers in decimal

`IsDecimal` is the notation of integers: one optional sign and at least one digit. Reading accepts
this notation and no other text, as far as the integer is within the range, and writing produces it.
What is written is therefore read back, also between blanks, and in a longer text it ends where the
digits do.
-/
namespace EmuControl.Text

/-- A run of characters of a class ends where the class does. -/
theorem span_append {p : Char → Bool} {run rest : List Char} (h : ∀ c ∈ run, p c = true)
    (hrest : ∀ c ∈ rest.head?, p c = false) : (run ++ rest).span p = (run, rest) := by
  have hstop : rest.takeWhile p = [] ∧ rest.dropWhile p = rest := by
    cases rest with
    | nil => exact ⟨rfl, rfl⟩
    | cons c rest =>
      have hc := hrest c rfl
      exact ⟨List.takeWhile_cons_of_neg (by simp [hc]), List.dropWhile_cons_of_neg (by simp [hc])⟩
  rw [List.span_eq_takeWhile_dropWhile, List.takeWhile_append_of_pos h,
    List.dropWhile_append_of_pos h, hstop.1, hstop.2, List.append_nil]

end EmuControl.Text

namespace EmuControl.Number

open EmuControl.Text

/-- At least one digit, and digits only. -/
def IsDigits (cs : List Char) : Prop :=
  cs ≠ [] ∧ ∀ c ∈ cs, c.isDigit = true

/-- The text stands for the integer. -/
inductive IsDecimal : List Char → Int → Prop
  | unsigned {digits : List Char} : IsDigits digits →
      IsDecimal digits (Nat.ofDigitChars 10 digits 0)
  | positive {digits : List Char} : IsDigits digits →
      IsDecimal ('+' :: digits) (Nat.ofDigitChars 10 digits 0)
  | negative {digits : List Char} : IsDigits digits →
      IsDecimal ('-' :: digits) (-(Nat.ofDigitChars 10 digits 0 : Int))

theorem digitValue?_eq_some_iff {c : Char} {d : Nat} :
    digitValue? c = some d ↔ c.isDigit = true ∧ c.toNat - '0'.toNat = d := by
  have hdigit : ('0' ≤ c && c ≤ '9') = c.isDigit := rfl
  rw [digitValue?, hdigit]
  cases c.isDigit <;> simp

theorem readDigits_eq_some_iff {acc n : Nat} {cs : List Char} :
    readDigits acc cs = some n ↔
      (∀ c ∈ cs, c.isDigit = true) ∧ Nat.ofDigitChars 10 cs acc = n := by
  induction cs generalizing acc with
  | nil => simp [readDigits]
  | cons c rest ih =>
    rw [readDigits, Option.bind_eq_some_iff, Nat.ofDigitChars_cons, List.forall_mem_cons, and_assoc]
    constructor
    · rintro ⟨d, hd, h⟩
      obtain ⟨hc, rfl⟩ := digitValue?_eq_some_iff.mp hd
      rw [Nat.mul_comm 10 acc]
      exact ⟨hc, ih.mp h⟩
    · rintro ⟨hc, h⟩
      rw [Nat.mul_comm 10 acc] at h
      exact ⟨_, digitValue?_eq_some_iff.mpr ⟨hc, rfl⟩, ih.mpr h⟩

theorem readNatural?_eq_some_iff {n : Nat} {cs : List Char} :
    readNatural? cs = some n ↔ IsDigits cs ∧ Nat.ofDigitChars 10 cs 0 = n := by
  cases cs with
  | nil => simp [readNatural?, IsDigits]
  | cons c rest => simp [readNatural?, readDigits_eq_some_iff, IsDigits]

theorem natural_eq_some_iff {cs : List Char} {n : Int} :
    (do let m ← readNatural? cs; pure (m : Int)) = some n ↔
      IsDigits cs ∧ (Nat.ofDigitChars 10 cs 0 : Int) = n := by
  simp only [Option.bind_eq_bind, Option.bind_eq_some_iff, readNatural?_eq_some_iff,
    Option.pure_def, Option.some.injEq]
  constructor
  · rintro ⟨m, ⟨hdigits, rfl⟩, rfl⟩
    exact ⟨hdigits, rfl⟩
  · rintro ⟨hdigits, rfl⟩
    exact ⟨_, ⟨hdigits, rfl⟩, rfl⟩

/-- The texts that can be read are those in decimal. -/
theorem readSigned?_eq_some_iff {cs : List Char} {n : Int} :
    readSigned? cs = some n ↔ IsDecimal cs n := by
  constructor
  · intro h
    unfold readSigned? at h
    split at h <;> obtain ⟨m, hm, rfl⟩ := Option.map_eq_some_iff.mp h <;>
      obtain ⟨hdigits, rfl⟩ := natural_eq_some_iff.mp hm
    · exact .negative hdigits
    · exact .positive hdigits
    · exact .unsigned hdigits
  · intro h
    cases h with
    | unsigned hdigits =>
      have hread := natural_eq_some_iff.mpr ⟨hdigits, rfl⟩
      unfold readSigned?
      split
      · exact absurd (hdigits.2 '-' List.mem_cons_self) (by decide)
      · exact absurd (hdigits.2 '+' List.mem_cons_self) (by decide)
      · rw [hread]
        rfl
    | positive hdigits =>
      have hread := natural_eq_some_iff.mpr ⟨hdigits, rfl⟩
      rw [readSigned?, hread]
      rfl
    | negative hdigits =>
      have hread := natural_eq_some_iff.mpr ⟨hdigits, rfl⟩
      rw [readSigned?, hread]
      rfl

theorem readWithin?_eq_some_iff {lo hi n : Int} {s : String} :
    readWithin? lo hi s = some n ↔ IsDecimal s.toList n ∧ lo ≤ n ∧ n ≤ hi := by
  rw [readWithin?, Option.filter_eq_some_iff, readSigned?_eq_some_iff]
  simp

/-- Reading a number of some width, when the width holds just the integers from `lo` to `hi`. -/
theorem map_readWithin?_eq_some_iff {α : Type} {lo hi : Int} {ofInt : Int → α} {toInt : α → Int}
    (hof : ∀ m, lo ≤ m → m ≤ hi → toInt (ofInt m) = m)
    (hto : ∀ a, ofInt (toInt a) = a ∧ lo ≤ toInt a ∧ toInt a ≤ hi) {s : String} {n : α} :
    (readWithin? lo hi s).map ofInt = some n ↔ IsDecimal s.toList (toInt n) := by
  rw [Option.map_eq_some_iff]
  constructor
  · rintro ⟨m, hm, rfl⟩
    obtain ⟨hdecimal, hlo, hhi⟩ := readWithin?_eq_some_iff.mp hm
    rwa [hof m hlo hhi]
  · intro h
    obtain ⟨hn, hlo, hhi⟩ := hto n
    exact ⟨toInt n, readWithin?_eq_some_iff.mpr ⟨h, hlo, hhi⟩, hn⟩

theorem readInt32?_eq_some_iff {s : String} {n : Int32} :
    readInt32? s = some n ↔ IsDecimal s.toList n.toInt := by
  refine map_readWithin?_eq_some_iff (fun m hlo hhi => ?_) fun n => ⟨Int32.ofInt_toInt n, ?_⟩
  · exact Int32.toInt_ofInt_of_le hlo (by omega)
  · have hlo := n.le_toInt
    have hhi := n.toInt_lt
    omega

example : readInt32? "+007" = some 7 := by decide +kernel
example : readInt32? "-2147483648" = some (-2147483648) := by decide +kernel
example : readInt32? "2147483648" = none := by decide +kernel

theorem readInt64?_eq_some_iff {s : String} {n : Int64} :
    readInt64? s = some n ↔ IsDecimal s.toList n.toInt := by
  refine map_readWithin?_eq_some_iff (fun m hlo hhi => ?_) fun n => ⟨Int64.ofInt_toInt n, ?_⟩
  · exact Int64.toInt_ofInt_of_le hlo (by omega)
  · have hlo := n.le_toInt
    have hhi := n.toInt_lt
    omega

theorem isDigits_toDigits (n : Nat) : IsDigits (Nat.toDigits 10 n) :=
  ⟨Nat.toDigits_ne_nil, fun _ h => Nat.isDigit_of_mem_toDigits (by decide) (by decide) h⟩

theorem digitChar_ne_zero : ∀ n < 10, n ≠ 0 → Nat.digitChar n ≠ '0' := by
  decide

theorem head_toDigits_ne_zero {n : Nat} (h : n ≠ 0) : (Nat.toDigits 10 n).head? ≠ some '0' := by
  induction n using Nat.strongRecOn with
  | ind n ih =>
    rcases Nat.lt_or_ge n 10 with hlt | hge
    · rw [Nat.toDigits_of_lt_base hlt]
      exact fun heq => digitChar_ne_zero n hlt h (Option.some.inj heq)
    · rw [Nat.toDigits_of_base_le (by decide) hge,
        List.head?_append_of_ne_nil _ Nat.toDigits_ne_nil]
      exact ih (n / 10) (by omega) (by omega)

/-- Digits that do not begin with a zero, or a zero alone. -/
structure IsWhole (cs : List Char) : Prop where
  isDigits : IsDigits cs
  zero : cs.head? = some '0' → cs = ['0']

theorem isWhole_toDigits (n : Nat) : IsWhole (Nat.toDigits 10 n) := by
  refine ⟨isDigits_toDigits n, fun h => ?_⟩
  by_cases hn : n = 0
  · rw [hn, Nat.toDigits_of_lt_base (by decide)]
    rfl
  · exact absurd h (head_toDigits_ne_zero hn)

theorem writeInteger_isDecimal (n : Int) : IsDecimal (writeInteger n).toList n := by
  cases n with
  | ofNat n =>
    have h := IsDecimal.unsigned (isDigits_toDigits n)
    rw [Nat.ofDigitChars_ten_toDigits] at h
    rwa [writeInteger, writeNatural, String.toList_ofList]
  | negSucc n =>
    have h := IsDecimal.negative (isDigits_toDigits (n + 1))
    rw [Nat.ofDigitChars_ten_toDigits] at h
    simp only [writeInteger, writeNatural, String.toList_append, String.toList_ofList]
    exact h

theorem readInt32?_writeInt32 (n : Int32) : readInt32? (writeInt32 n) = some n :=
  readInt32?_eq_some_iff.mpr (writeInteger_isDecimal n.toInt)

theorem readInt64?_writeInt64 (n : Int64) : readInt64? (writeInt64 n) = some n :=
  readInt64?_eq_some_iff.mpr (writeInteger_isDecimal n.toInt)

theorem writeInt32_injective : Function.Injective writeInt32 := by
  intro m n h
  have hread := congrArg readInt32? h
  rw [readInt32?_writeInt32, readInt32?_writeInt32] at hread
  exact Option.some.inj hread

/-- A number ends at the first character that is no digit. -/
theorem writeNatural_append_inj {m n : Nat} {mark : Char} {rest rest' : List Char}
    (hmark : mark.isDigit = false)
    (h : (writeNatural m).toList ++ mark :: rest = (writeNatural n).toList ++ mark :: rest') :
    m = n ∧ rest = rest' := by
  have hstop : ∀ more : List Char, ∀ c ∈ (mark :: more).head?, c.isDigit = false := by
    simp [hmark]
  simp only [writeNatural, String.toList_ofList] at h
  have hspan := congrArg (List.span Char.isDigit) h
  rw [span_append (isDigits_toDigits m).2 (hstop rest),
    span_append (isDigits_toDigits n).2 (hstop rest')] at hspan
  obtain ⟨hdigits, hmore⟩ := Prod.mk.inj hspan
  have hnumber := congrArg (Nat.ofDigitChars 10 · 0) hdigits
  simp only [Nat.ofDigitChars_ten_toDigits] at hnumber
  exact ⟨hnumber, List.tail_eq_of_cons_eq hmore⟩

/-- What is written is the usual text of the number. -/
theorem writeNatural_eq_toString (n : Nat) : writeNatural n = toString n :=
  rfl

theorem writeInt32_eq_toString (n : Int32) : writeInt32 n = toString n := by
  change writeInteger n.toInt = toString n.toInt
  cases n.toInt with
  | ofNat n => rfl
  | negSucc n => rfl

theorem isBlank_eq_false_of_isDigit {c : Char} (h : c.isDigit = true) : isBlank c = false := by
  have hc : 48 ≤ c.toNat ∧ c.toNat ≤ 57 := by
    simpa [Char.isDigit, UInt32.le_iff_toNat_le] using h
  simp only [isBlank, Bool.or_eq_false_iff, Bool.and_eq_false_iff, decide_eq_false_iff_not,
    beq_eq_false_iff_ne]
  omega

theorem IsDecimal.isBlank_eq_false {cs : List Char} {n : Int} (h : IsDecimal cs n) :
    ∀ c ∈ cs, isBlank c = false := by
  cases h with
  | unsigned hdigits => exact fun c hc => isBlank_eq_false_of_isDigit (hdigits.2 c hc)
  | positive hdigits =>
    exact List.forall_mem_cons.mpr
      ⟨by decide, fun c hc => isBlank_eq_false_of_isDigit (hdigits.2 c hc)⟩
  | negative hdigits =>
    exact List.forall_mem_cons.mpr
      ⟨by decide, fun c hc => isBlank_eq_false_of_isDigit (hdigits.2 c hc)⟩

end EmuControl.Number

namespace EmuControl.Text

theorem dropWhile_eq_self {cs : List Char} (h : ∀ c ∈ cs, isBlank c = false) :
    cs.dropWhile isBlank = cs := by
  cases cs with
  | nil => rfl
  | cons c rest => exact List.dropWhile_cons_of_neg (by simp [h c List.mem_cons_self])

/-- A text without blanks has none to lose. -/
theorem trimChars_eq_self {cs : List Char} (h : ∀ c ∈ cs, isBlank c = false) :
    trimChars cs = cs := by
  have hend : cs.reverse.dropWhile isBlank = cs.reverse :=
    dropWhile_eq_self fun c hc => h c (List.mem_reverse.mp hc)
  rw [trimChars, dropWhile_eq_self h, trimEnd, hend, List.reverse_reverse]

theorem trim_eq_self {s : String} (h : ∀ c ∈ s.toList, isBlank c = false) : trim s = s := by
  rw [trim, trimChars_eq_self h, String.ofList_toList]

theorem trimChars_trimChars (cs : List Char) : trimChars (trimChars cs) = trimChars cs := by
  have hstart : (trimChars cs).dropWhile isBlank = trimChars cs := by
    rw [List.dropWhile_eq_self_iff]
    intro hpos
    -- What is left at the end begins with the first character that is not blank.
    have hpre : trimChars cs <+: cs.dropWhile isBlank := List.rdropWhile_prefix isBlank _
    have hlen := hpos.trans_le hpre.length_le
    rw [hpre.getElem hpos]
    exact List.dropWhile_eq_self_iff.mp (List.dropWhile_idempotent isBlank cs) hlen
  rw [trimChars, hstart]
  exact List.rdropWhile_idempotent isBlank _

@[simp] theorem trim_trim (s : String) : trim (trim s) = trim s := by
  rw [trim, trim, String.toList_ofList, trimChars_trimChars]

end EmuControl.Text

namespace EmuControl

open EmuControl.Number EmuControl.Text

@[simp] theorem trim_writeInt32 (n : Int32) : trim (writeInt32 n) = writeInt32 n :=
  trim_eq_self (writeInteger_isDecimal n.toInt).isBlank_eq_false

@[simp] theorem trim_writeInt64 (n : Int64) : trim (writeInt64 n) = writeInt64 n :=
  trim_eq_self (writeInteger_isDecimal n.toInt).isBlank_eq_false

theorem Mapped.int32_eq_ok_iff {key text : String} {n : Int32} :
    Mapped.int32 key text = .ok n ↔ IsDecimal (trim text).toList n.toInt := by
  rw [← readInt32?_eq_some_iff, Mapped.int32]
  cases readInt32? (trim text) <;> simp

@[simp] theorem Mapped.int32_writeInt32 (key : String) (n : Int32) :
    Mapped.int32 key (writeInt32 n) = .ok n := by
  rw [Mapped.int32, trim_writeInt32, readInt32?_writeInt32]

end EmuControl
