import EmuControl.Proofs.OptionExtraction
import EmuControl.Proofs.RecordMapping

/-!
# Integers in texts

Four texts become integers when they are mapped: the mask of an IPv6 address, the timer of a service,
the key of a link and every option that a schema reserves for an integer. `HoldsInteger` is what they
share: an integer in decimal, perhaps with a sign and with leading zeros, between blanks.
`Converts` says of a place where such a text is read that it takes the integers of its width in this
form and no others, and that it takes what is written there, whatever blanks are put around it.
Only the key of a link may be blank, and is open then.
-/
namespace EmuControl.Text

def AllBlank (cs : List Char) : Prop :=
  ∀ c ∈ cs, isBlank c = true

instance (cs : List Char) : Decidable (AllBlank cs) :=
  List.decidableBAll (isBlank · = true) cs

theorem AllBlank.reverse {cs : List Char} (h : AllBlank cs) : AllBlank cs.reverse :=
  fun c hc => h c (List.mem_reverse.mp hc)

theorem trimEnd_append {cs after : List Char} (h : AllBlank after) :
    trimEnd (cs ++ after) = trimEnd cs := by
  rw [trimEnd, List.reverse_append, List.dropWhile_append_of_pos h.reverse, trimEnd]

/-- Blanks around a text do not matter. -/
theorem trimChars_surrounded {before after : List Char} (hbefore : AllBlank before)
    (hafter : AllBlank after) (cs : List Char) :
    trimChars (before ++ cs ++ after) = trimChars cs := by
  rw [List.append_assoc, trimChars, List.dropWhile_append_of_pos hbefore, List.dropWhile_append,
    trimChars]
  split
  · rename_i hempty
    rw [List.dropWhile_eq_nil_iff.mpr hafter, List.isEmpty_iff.mp hempty]
  · exact trimEnd_append hafter

theorem exists_trimChars (cs : List Char) :
    ∃ before after, AllBlank before ∧ AllBlank after ∧ cs = before ++ trimChars cs ++ after := by
  have hend := List.takeWhile_append_dropWhile (p := isBlank) (l := (cs.dropWhile isBlank).reverse)
  refine ⟨cs.takeWhile isBlank, ((cs.dropWhile isBlank).reverse.takeWhile isBlank).reverse,
    fun c hc => List.mem_takeWhile_imp hc,
    AllBlank.reverse fun c hc => List.mem_takeWhile_imp hc, ?_⟩
  rw [List.append_assoc, trimChars, trimEnd, ← List.reverse_append, hend, List.reverse_reverse,
    List.takeWhile_append_dropWhile]

theorem trim_eq_empty_iff {s : String} : trim s = "" ↔ AllBlank s.toList := by
  rw [← String.toList_inj, trim, String.toList_ofList]
  constructor
  · intro h
    obtain ⟨before, after, hbefore, hafter, hs⟩ := exists_trimChars s.toList
    have hnil : trimChars s.toList = [] := h
    rw [hnil, List.append_nil] at hs
    rw [hs]
    exact fun c hc => (List.mem_append.mp hc).elim (hbefore c) (hafter c)
  · intro h
    rw [trimChars, List.dropWhile_eq_nil_iff.mpr h]
    rfl

end EmuControl.Text

namespace EmuControl

open EmuControl.Number EmuControl.Text

/-- The text is the integer in decimal between blanks. -/
def HoldsInteger (text : String) (n : Int) : Prop :=
  ∃ before digits after, AllBlank before ∧ IsDecimal digits n ∧ AllBlank after ∧
    text.toList = before ++ digits ++ after

theorem holdsInteger_iff {text : String} {n : Int} :
    HoldsInteger text n ↔ IsDecimal (trim text).toList n := by
  rw [trim, String.toList_ofList]
  constructor
  · intro h
    obtain ⟨before, digits, after, hbefore, hdigits, hafter, htext⟩ := h
    rwa [htext, trimChars_surrounded hbefore hafter, trimChars_eq_self hdigits.isBlank_eq_false]
  · intro h
    obtain ⟨before, after, hbefore, hafter, htext⟩ := exists_trimChars text.toList
    exact ⟨before, _, after, hbefore, h, hafter, htext⟩

theorem HoldsInteger.not_allBlank {text : String} {n : Int} (h : HoldsInteger text n) :
    ¬ AllBlank text.toList := by
  rw [← trim_eq_empty_iff]
  intro hempty
  have hdecimal := holdsInteger_iff.mp h
  rw [hempty] at hdecimal
  cases hdecimal with
  | unsigned hdigits => exact hdigits.1 rfl

/-- A place where text is read as an integer from `lo` to `hi`, if the text does not leave it open,
and where such integers are written. -/
structure Converts {ι : Type} (toInt : ι → Int) (lo hi : Int) (isOpen : String → Prop)
    (read : String → Mapped (Option ι)) (write : ι → Option String) : Prop where
  some_iff : ∀ text n, (∃ i, read text = .ok (some i) ∧ toInt i = n) ↔
    HoldsInteger text n ∧ lo ≤ n ∧ n ≤ hi
  none_iff : ∀ text, read text = .ok none ↔ isOpen text
  error_iff : ∀ text, (∃ e, read text = .error e) ↔
    ¬ isOpen text ∧ ∀ n, HoldsInteger text n → ¬ (lo ≤ n ∧ n ≤ hi)
  written : ∀ i, write i = some (writeInteger (toInt i))
  read_written : ∀ i (before after : String), AllBlank before.toList → AllBlank after.toList →
    read (before ++ writeInteger (toInt i) ++ after) = .ok (some i)

section

variable {ι : Type} {toInt : ι → Int} {lo hi : Int} {isOpen : String → Prop}
  {read : String → Mapped (Option ι)} {write : ι → Option String}

theorem Converts.of_read (hrange : ∀ n, lo ≤ n ∧ n ≤ hi ↔ ∃ i, toInt i = n)
    (hsome : ∀ text i, read text = .ok (some i) ↔ HoldsInteger text (toInt i))
    (hnone : ∀ text, read text = .ok none ↔ isOpen text)
    (hwrite : ∀ i, write i = some (writeInteger (toInt i))) :
    Converts toInt lo hi isOpen read write where
  some_iff text n := by
    simp only [hsome, hrange]
    constructor
    · rintro ⟨i, htext, rfl⟩
      exact ⟨htext, i, rfl⟩
    · rintro ⟨htext, i, rfl⟩
      exact ⟨i, htext, rfl⟩
  none_iff := hnone
  error_iff text := by
    have hnothing : (∀ n, HoldsInteger text n → ¬ (lo ≤ n ∧ n ≤ hi)) ↔
        ∀ i, ¬ HoldsInteger text (toInt i) := by
      simp only [hrange]
      constructor
      · exact fun h i hi => h _ hi ⟨i, rfl⟩
      · rintro h _ hn ⟨i, rfl⟩
        exact h i hn
    simp only [hnothing, ← hsome, ← hnone]
    match read text with
    | .error e => simp
    | .ok none => simp
    | .ok (some i) => simp
  written := hwrite
  read_written i before after hbefore hafter := by
    refine (hsome _ _).mpr ⟨_, _, _, hbefore, writeInteger_isDecimal (toInt i), hafter, ?_⟩
    rw [String.toList_append, String.toList_append]

end

theorem int32_range (n : Int) :
    -2147483648 ≤ n ∧ n ≤ 2147483647 ↔ ∃ i : Int32, i.toInt = n := by
  constructor
  · rintro ⟨hlo, hhi⟩
    exact ⟨Int32.ofInt n, Int32.toInt_ofInt_of_le hlo (by omega)⟩
  · rintro ⟨i, rfl⟩
    have hlo := i.le_toInt
    have hhi := i.toInt_lt
    omega

theorem int64_range (n : Int) :
    -9223372036854775808 ≤ n ∧ n ≤ 9223372036854775807 ↔ ∃ i : Int64, i.toInt = n := by
  constructor
  · rintro ⟨hlo, hhi⟩
    exact ⟨Int64.ofInt n, Int64.toInt_ofInt_of_le hlo (by omega)⟩
  · rintro ⟨i, rfl⟩
    have hlo := i.le_toInt
    have hhi := i.toInt_lt
    omega

/-- A text that has to hold an integer. -/
theorem Mapped.int32_converts (key : String) {write : Int32 → Option String}
    (hwrite : ∀ i, write i = some (writeInt32 i)) :
    Converts Int32.toInt (-2147483648) 2147483647 (fun _ => False)
      (fun text => (Mapped.int32 key text).map some) write := by
  refine .of_read int32_range (fun text i => ?_) (fun text => ?_) hwrite
  · have hread : Mapped.int32 key text = .ok i ↔ HoldsInteger text i.toInt :=
      Mapped.int32_eq_ok_iff.trans holdsInteger_iff.symm
    rw [← hread]
    cases Mapped.int32 key text <;> simp [Except.map]
  · cases Mapped.int32 key text <;> simp [Except.map]

theorem ServiceData.timer_converts (d : ServiceData) (w : Wire.ServiceData) (mode : ValidationMode) :
    Converts Int32.toInt (-2147483648) 2147483647 (fun _ => False)
      (fun text => (toWire { d with validationTimer := text }).map fun sent =>
        some sent.validationTimer)
      fun i => (ofWire
        { w with validationMode := mode.number, validationTimer := i }).toOption.map
          (·.validationTimer) := by
  have hread : (fun text => (toWire { d with validationTimer := text }).map fun sent =>
      some sent.validationTimer) = fun text => (Mapped.int32 "validation_timer" text).map some := by
    funext text
    unfold toWire
    cases Mapped.int32 "validation_timer" text <;> rfl
  rw [hread]
  refine Mapped.int32_converts _ fun i => ?_
  have hmode : ValidationMode.ofNumber mode.number = .ok mode :=
    ValidationMode.ofNumber_eq_ok_iff.mpr rfl
  rw [ofWire, hmode]
  rfl

theorem LinkOptions.key_converts (w : Wire.LinkOptions) (o : LinkOptions) :
    Converts Int32.toInt (-2147483648) 2147483647 (fun text => AllBlank text.toList)
      (fun text => (ofWire { w with key := some text }).map (·.key))
      fun i => (toWire { o with key := some i }).key := by
  have hread : (fun text => (ofWire { w with key := some text }).map (·.key)) = keyOfWire := by
    funext text
    rw [ofWire_eq, Option.elim_some]
    cases keyOfWire text <;> rfl
  rw [hread]
  refine .of_read int32_range (fun text i => ?_) (fun text => ?_) fun i => rfl
  · simp only [keyOfWire_eq_ok_iff, ne_eq, trim_eq_empty_iff, ← holdsInteger_iff]
    constructor
    · rintro (⟨-, hsome⟩ | ⟨-, i', hsome, hinteger⟩)
      · cases hsome
      · cases hsome
        exact hinteger
    · exact fun h => .inr ⟨h.not_allBlank, i, rfl, h⟩
  · rw [keyOfWire_eq_ok_iff, trim_eq_empty_iff]
    simp

namespace OptionSchema

variable {s : OptionSchema} {name text : String} {m : OptionMap} {values : OptionValues}

theorem exists_extract_insert_iff (hkey : (s.key? name).map OptionKey.kind = some .integer)
    (hvalues : s.extract m = .ok values) :
    (∃ values', s.extract (m.insert name text) = .ok values') ↔ HoldsInt64 text := by
  have hothers := exists_extract_iff.mp ⟨values, hvalues⟩
  rw [exists_extract_iff]
  constructor
  · intro h
    have hname := h name text (SortedMap.get?_insert_self m name text)
    exact not_not.mp fun hno => hname ⟨hkey, hno⟩
  · intro h name' raw hraw
    rw [SortedMap.get?_insert] at hraw
    split at hraw
    · cases hraw
      exact fun hbad => hbad.2 h
    · exact hothers name' raw hraw

/-- A reserved option that comes out is the integer that its text holds. -/
theorem integer?_of_extract_insert (hkey : (s.key? name).map OptionKey.kind = some .integer)
    (h : s.extract (m.insert name text) = .ok values) {i : Int64} :
    values.integer? name = some i ↔ HoldsInteger text i.toInt := by
  have hget : values.integer? name = some i ↔ values.get? name = some (.integer i) := by
    rw [OptionValues.integer?]
    split <;> simp_all
  rw [hget, extract_get?_eq_some_iff h, SortedMap.get?_insert_self, holdsInteger_iff]
  obtain ⟨k, hk, hkind⟩ := Option.map_eq_some_iff.mp hkey
  constructor
  · rintro ⟨raw, hraw, hmeans⟩
    cases hraw
    cases hmeans
    assumption
  · exact fun hdecimal => ⟨text, rfl, .integer hk hkind hdecimal⟩

theorem option_converts (hkey : (s.key? name).map OptionKey.kind = some .integer)
    (hvalues : s.extract m = .ok values) :
    Converts Int64.toInt (-9223372036854775808) 9223372036854775807 (fun _ => False)
      (fun text => (s.extract (m.insert name text)).map (·.integer? name))
      fun i => some (OptionValue.integer i).render := by
  refine .of_read int64_range (fun text i => ?_) (fun text => ?_) fun i => rfl
  · have hholds : (∃ values', s.extract (m.insert name text) = .ok values') ↔ HoldsInt64 text :=
      exists_extract_insert_iff hkey hvalues
    cases hextract : s.extract (m.insert name text) with
    | error e =>
      rw [hextract] at hholds
      refine iff_of_false nofun fun hinteger => ?_
      obtain ⟨_, hok⟩ := hholds.mpr ⟨i, holdsInteger_iff.mp hinteger⟩
      cases hok
    | ok values' =>
      rw [Except.map, Except.ok.injEq, integer?_of_extract_insert hkey hextract]
  · refine iff_of_false (fun h => ?_) id
    cases hextract : s.extract (m.insert name text) with
    | error e =>
      rw [hextract] at h
      cases h
    | ok values' =>
      obtain ⟨i, hi⟩ := (exists_extract_insert_iff hkey hvalues).mp ⟨values', hextract⟩
      have hsome := (integer?_of_extract_insert hkey hextract).mpr (holdsInteger_iff.mpr hi)
      have hnone : values'.integer? name = none := by
        rw [hextract] at h
        exact Except.ok.inj h
      rw [hnone] at hsome
      cases hsome

end OptionSchema

/-- The mask of an address, the timer of a service, the key of a link and an option that is reserved
for an integer are read in one notation, each within the range of its width and no further, and what
is written for an integer is read as that integer again, whatever blanks are put around it. A blank
text is an error, but for the key of a link, which it leaves open. -/
theorem integers_in_texts :
    Converts Int32.toInt (-2147483648) 2147483647 (fun _ => False)
      (fun text => (Interface.maskToWire text).map some)
      (fun i => some (Interface.maskOfWire i)) ∧
    (∀ (d : ServiceData) (w : Wire.ServiceData) (mode : ValidationMode),
      Converts Int32.toInt (-2147483648) 2147483647 (fun _ => False)
        (fun text => (ServiceData.toWire { d with validationTimer := text }).map fun sent =>
          some sent.validationTimer)
        fun i => (ServiceData.ofWire
          { w with validationMode := mode.number, validationTimer := i }).toOption.map
            (·.validationTimer)) ∧
    (∀ (w : Wire.LinkOptions) (o : LinkOptions),
      Converts Int32.toInt (-2147483648) 2147483647 (fun text => AllBlank text.toList)
        (fun text => (LinkOptions.ofWire { w with key := some text }).map (·.key))
        fun i => (LinkOptions.toWire { o with key := some i }).key) ∧
    ∀ (s : OptionSchema) (name : String) (m : OptionMap) (values : OptionValues),
      (s.key? name).map OptionKey.kind = some .integer → s.extract m = .ok values →
      Converts Int64.toInt (-9223372036854775808) 9223372036854775807 (fun _ => False)
        (fun text => (s.extract (m.insert name text)).map (·.integer? name))
        fun i => some (OptionValue.integer i).render :=
  ⟨Mapped.int32_converts "ip6_mask" fun _ => rfl, ServiceData.timer_converts,
    LinkOptions.key_converts, fun _ _ _ _ => OptionSchema.option_converts⟩

/-- The smallest integer of 64 bits is read between blanks of any kind, no smaller one is, and blanks
alone are an error. -/
theorem least_refresh_converts :
    let read := fun text => ((OptionSchema.mobility.extract
      (SortedMap.ofList [("file", "a b"), ("refresh_ms", text)])).map (·.integer? "refresh_ms"))
    read ("\u2003\n" ++ "-9223372036854775808" ++ "\u3000") = .ok (some (-9223372036854775808)) ∧
      (¬ ∃ i, read "\t-09223372036854775809" = .ok (some i) ∧ i.toInt = -9223372036854775809) ∧
      ∃ e, read "\u2003\n" = .error e := by
  intro read
  obtain ⟨-, -, -, hoption⟩ := integers_in_texts
  have hconverts := hoption .mobility "refresh_ms" (.ofList [("file", "a b")])
    (.ofList [("file", .text "a b")]) (by decide +kernel) (by decide +kernel)
  have hback := hconverts.read_written (-9223372036854775808)
  have hblank : AllBlank "\u2003\n".toList := by decide +kernel
  refine ⟨hback "\u2003\n" "\u3000" hblank (by decide +kernel), fun h => ?_, ?_⟩
  · have hrange := (hconverts.some_iff _ _).mp h
    omega
  · exact (hconverts.error_iff _).mpr
      ⟨id, fun n hinteger => absurd hblank hinteger.not_allBlank⟩

end EmuControl
