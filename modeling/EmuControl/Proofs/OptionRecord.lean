import EmuControl.Proofs.OptionCodec
import EmuControl.Proofs.OptionSchema
import EmuControl.Proofs.SortedLookup
import EmuControl.Proofs.TopologyMapping

/-!
# Records and the codec of options

A record of fixed shape is read from groups of options by way of its schema, and written back the
same way. Nothing is lost between: on what a schema extracts, the fields of the record and the
reserved names of the schema are in one-to-one correspondence, kinds included. So the record is
written as the extracted values are rendered, and what becomes of an option on the way can be said
name by name.
-/
namespace EmuControl

open EmuControl.Number EmuControl.Text

namespace OptionSchema

variable {s : OptionSchema}

/-- The value that the schema keeps of an option. -/
def kept? (s : OptionSchema) (name raw : String) : Option OptionValue :=
  match s.read name raw with
  | .ok value => value
  | .error _ => none

theorem take_get? {values values' : OptionValues} {option : String × String}
    (h : s.take values option = .ok values') (name : String) :
    values'.get? name =
      if name = option.1 then (s.kept? option.1 option.2).or (values.get? name)
      else values.get? name := by
  unfold take at h
  unfold kept?
  cases hread : s.read option.1 option.2 with
  | error e =>
    rw [hread] at h
    cases h
  | ok kept =>
    rw [hread] at h
    cases kept with
    | none =>
      cases h
      simp
    | some v =>
      cases h
      rw [SortedMap.get?_insert]
      rfl

theorem foldlM_take_get? {options : List (String × String)} {values values' : OptionValues}
    (hsorted : options.Pairwise fun a b => compare a.1 b.1 = .lt)
    (h : options.foldlM s.take values = .ok values') (name : String) :
    values'.get? name =
      ((SortedMap.lookup name options).bind (s.kept? name)).or (values.get? name) := by
  induction options generalizing values with
  | nil =>
    cases h
    rfl
  | cons option options ih =>
    rw [List.foldlM_cons] at h
    cases hnext : s.take values option with
    | error e =>
      rw [hnext] at h
      cases h
    | ok next =>
      rw [hnext] at h
      rw [ih hsorted.of_cons h, take_get? hnext, SortedMap.lookup_cons]
      by_cases hname : name = option.1
      · have hout : name ∉ options.map (·.1) := by
          intro hmem
          obtain ⟨later, hlater, heq⟩ := List.mem_map.mp hmem
          have hlt := List.rel_of_pairwise_cons hsorted hlater
          rw [heq, hname] at hlt
          simp at hlt
        rw [SortedMap.lookup_eq_none_of_not_mem hout, if_pos hname, if_pos hname, hname]
        rfl
      · rw [if_neg hname, if_neg hname]

/-- Under each name stands what the schema keeps of the option. -/
theorem extract_get? {m : OptionMap} {values : OptionValues} (h : s.extract m = .ok values)
    (name : String) : values.get? name = (m.get? name).bind (s.kept? name) := by
  rw [foldlM_take_get? m.sorted h name, SortedMap.get?_empty, Option.or_none]
  rfl

theorem render_get? (values : OptionValues) (name : String) :
    (s.render values).get? name =
      if s.admits name then (values.get? name).map OptionValue.render else none := by
  rw [render, SortedMap.get?_mapValues, SortedMap.get?_filter]
  cases s.admits name with
  | true => cases values.get? name <;> rfl
  | false => cases values.get? name <;> rfl

theorem kept?_of_admits_eq_false {name raw : String} (h : s.admits name = false) :
    s.kept? name raw = none := by
  unfold admits at h
  rw [Bool.or_eq_false_iff, Option.isSome_eq_false_iff, Option.isNone_iff_eq_none] at h
  unfold kept? read
  rw [h.2, h.1]
  rfl

/-- What is rendered of extracted values, name by name. -/
theorem render_extract_get? {m : OptionMap} {values : OptionValues} (h : s.extract m = .ok values)
    (name : String) :
    (s.render values).get? name =
      (m.get? name).bind fun raw => (s.kept? name raw).map OptionValue.render := by
  rw [render_get?, extract_get? h]
  cases hadmits : s.admits name with
  | true =>
    rw [if_pos rfl]
    cases m.get? name <;> rfl
  | false =>
    rw [if_neg Bool.false_ne_true]
    cases m.get? name with
    | none => rfl
    | some raw => rw [Option.bind_some, kept?_of_admits_eq_false hadmits, Option.map_none]

/-- An entry under a reserved name is of the kind that the schema says. -/
theorem Admissible.kind_of_get? {values : OptionValues} (h : s.Admissible values) {name : String}
    {v : OptionValue} {k : OptionKey} (hkey : s.key? name = some k)
    (hv : values.get? name = some v) : v.kind = k.kind := by
  rcases h _ (SortedMap.get?_eq_some_iff.mp hv) with hk | ⟨hk, _⟩
  · rw [hkey] at hk
    exact (Option.some.inj hk).symm
  · rw [hkey] at hk
    cases hk

/-- A closed schema has no entries but those that it reserves. -/
theorem Admissible.get?_of_closed {values : OptionValues} (h : s.Admissible values)
    (hclosed : s.isOpen = false) {name : String} (hkey : s.key? name = none) :
    values.get? name = none := by
  cases hv : values.get? name with
  | none => rfl
  | some v =>
    rcases h _ (SortedMap.get?_eq_some_iff.mp hv) with hk | ⟨_, hopen, _⟩
    · rw [hkey] at hk
      cases hk
    · rw [hclosed] at hopen
      cases hopen

end OptionSchema

namespace OptionValues

variable {values : OptionValues} {s : OptionSchema}

theorem get?_setText (values : OptionValues) (name k : String) (o : Option String) :
    (setText values name o).get? k = if k = name then o.map .text else values.get? k := by
  cases o with
  | none => exact SortedMap.get?_erase values name k
  | some text => exact SortedMap.get?_insert values name k _

theorem get?_setInteger (values : OptionValues) (name k : String) (o : Option Int64) :
    (setInteger values name o).get? k = if k = name then o.map .integer else values.get? k := by
  cases o with
  | none => exact SortedMap.get?_erase values name k
  | some n => exact SortedMap.get?_insert values name k _

/-- A field of text holds all that there is under its name. -/
theorem map_text? (h : s.Admissible values) {name : String}
    (hkey : s.key? name = some ⟨name, .text⟩) :
    (text? values name).map .text = values.get? name := by
  unfold text?
  cases hv : values.get? name with
  | none => rfl
  | some v =>
    cases v with
    | text raw => rfl
    | integer n => cases h.kind_of_get? hkey hv

theorem map_integer? (h : s.Admissible values) {name : String}
    (hkey : s.key? name = some ⟨name, .integer⟩) :
    (integer? values name).map .integer = values.get? name := by
  unfold integer?
  cases hv : values.get? name with
  | none => rfl
  | some v =>
    cases v with
    | text raw => cases h.kind_of_get? hkey hv
    | integer n => rfl

end OptionValues

namespace OptionRecord

/-- Admissible values go through the record unchanged. -/
def IsFaithful (α : Type) [OptionRecord α] : Prop :=
  ∀ values, (schema α).Admissible values → toValues (ofValues values : α) = values

open OptionValues in
theorem wlanConfig_isFaithful : IsFaithful WlanConfig := by
  intro values h
  have hnone : ∀ name, OptionSchema.wlan.key? name = none → values.get? name = none :=
    fun name => h.get?_of_closed rfl
  apply SortedMap.ext_get?
  intro name
  simp only [toValues, ofValues, get?_setText, SortedMap.get?_empty]
  split_ifs with h₁ h₂ h₃ h₄ h₅
  · rw [h₁]; exact map_text? h rfl
  · rw [h₂]; exact map_text? h rfl
  · rw [h₃]; exact map_text? h rfl
  · rw [h₄]; exact map_text? h rfl
  · rw [h₅]; exact map_text? h rfl
  · refine (hnone name ?_).symm
    simp [OptionSchema.key?, OptionSchema.wlan, Ne.symm h₁, Ne.symm h₂, Ne.symm h₃, Ne.symm h₄,
      Ne.symm h₅]

open OptionValues in
theorem mobilityConfig_isFaithful : IsFaithful MobilityConfig := by
  intro values h
  have hnone : ∀ name, OptionSchema.mobility.key? name = none → values.get? name = none :=
    fun name => h.get?_of_closed rfl
  apply SortedMap.ext_get?
  intro name
  simp only [toValues, ofValues, get?_setText, get?_setInteger, SortedMap.get?_empty]
  split_ifs with h₁ h₂ h₃ h₄ h₅ h₆ h₇ h₈
  · rw [h₁]; exact map_text? h rfl
  · rw [h₂]; exact map_text? h rfl
  · rw [h₃]; exact map_text? h rfl
  · rw [h₄]; exact map_text? h rfl
  · rw [h₅]; exact map_text? h rfl
  · rw [h₆]; exact map_text? h rfl
  · rw [h₇]; exact map_integer? h rfl
  · rw [h₈]; exact map_text? h rfl
  · refine (hnone name ?_).symm
    simp [OptionSchema.key?, OptionSchema.mobility, Ne.symm h₁, Ne.symm h₂, Ne.symm h₃, Ne.symm h₄,
      Ne.symm h₅, Ne.symm h₆, Ne.symm h₇, Ne.symm h₈]

/-- Reading groups as a record is what extracting the values is: it fails with the same error, and
the record is written as the values are rendered. -/
def AgreesWithSchema (α : Type) [OptionRecord α] : Prop :=
  ∀ groups, match (schema α).extract (flattenGroups groups) with
    | .ok values => ∃ a : α, ofGroups groups = .ok a ∧ toMap a = (schema α).render values
    | .error e => (ofGroups groups : Mapped α) = .error e

variable {α : Type} [OptionRecord α]

theorem IsFaithful.agreesWithSchema (hα : IsFaithful α) : AgreesWithSchema α := by
  intro groups
  cases hvalues : (schema α).extract (flattenGroups groups) with
  | error e =>
    dsimp only
    rw [ofGroups, hvalues]
    rfl
  | ok values =>
    refine ⟨ofValues values, ?_, ?_⟩
    · rw [ofGroups, hvalues]
      rfl
    · rw [toMap, hα values (OptionSchema.admissible_of_extract hvalues)]

/-- What a record that was read is written as, name by name. -/
theorem IsFaithful.toMap_get? (hα : IsFaithful α) {groups : List ConfigGroup} {a : α}
    (h : ofGroups groups = .ok a) (name : String) :
    (toMap a).get? name = ((flattenGroups groups).get? name).bind fun raw =>
      ((schema α).kept? name raw).map OptionValue.render := by
  have hagrees := hα.agreesWithSchema groups
  cases hvalues : (schema α).extract (flattenGroups groups) with
  | error e =>
    rw [hvalues] at hagrees
    cases h.symm.trans hagrees
  | ok values =>
    rw [hvalues] at hagrees
    obtain ⟨a', ha', hmap⟩ := hagrees
    cases h.symm.trans ha'
    rw [hmap, OptionSchema.render_extract_get? hvalues]

end OptionRecord

/-- The options of a wireless network. -/
def wlanNames : List String :=
  ["bandwidth", "delay", "error", "jitter", "range"]

/-- The options of the mobility of a node. -/
def mobilityNames : List String :=
  ["file", "refresh_ms", "autostart", "loop", "map", "script_pause", "script_start", "script_stop"]

/-- The canonical decimal of the 64-bit integer that a text holds. -/
def canonicalInteger (text : String) : String :=
  (readInt64? (trim text)).elim text writeInt64

namespace OptionSchema

theorem kept?_unreserved {s : OptionSchema} (hclosed : s.isOpen = false) {name : String}
    (h : name ∉ s.keys.map OptionKey.name) (raw : String) : s.kept? name raw = none := by
  have hkey : s.key? name = none := by
    rw [key?, List.find?_eq_none]
    intro k hk
    rw [decide_eq_true_eq]
    rintro rfl
    exact h (List.mem_map_of_mem hk)
  unfold kept? read
  rw [hkey, hclosed]
  rfl

theorem kept?_wlan (name raw : String) :
    wlan.kept? name raw = if wlanNames.contains name then some (.text raw) else none := by
  by_cases h : name ∈ wlanNames
  · rw [if_pos (List.contains_iff_mem.mpr h)]
    simp only [wlanNames, List.mem_cons, List.not_mem_nil, or_false] at h
    rcases h with rfl | rfl | rfl | rfl | rfl <;> rfl
  · rw [if_neg (mt List.contains_iff_mem.mp h)]
    exact kept?_unreserved rfl h raw

theorem kept?_mobility (name raw : String) :
    mobility.kept? name raw =
      if name = "refresh_ms" then (readInt64? (trim raw)).map .integer
      else if mobilityNames.contains name then some (.text raw) else none := by
  by_cases hrefresh : name = "refresh_ms"
  · subst hrefresh
    have hkey : mobility.key? "refresh_ms" = some ⟨"refresh_ms", .integer⟩ := rfl
    rw [if_pos rfl, kept?, read, hkey]
    cases readInt64? (trim raw) <;> rfl
  rw [if_neg hrefresh]
  by_cases h : name ∈ mobilityNames
  · rw [if_pos (List.contains_iff_mem.mpr h)]
    simp only [mobilityNames, List.mem_cons, List.not_mem_nil, or_false, hrefresh, false_or] at h
    rcases h with rfl | rfl | rfl | rfl | rfl | rfl | rfl <;> rfl
  · rw [if_neg (mt List.contains_iff_mem.mp h)]
    exact kept?_unreserved rfl h raw

/-- What was extracted from could be read, option by option. -/
theorem read_ok_of_foldlM {s : OptionSchema} {options : List (String × String)}
    {values values' : OptionValues} (h : options.foldlM s.take values = .ok values') :
    ∀ option ∈ options, ∃ v, s.read option.1 option.2 = .ok v := by
  induction options generalizing values with
  | nil => simp
  | cons option options ih =>
    rw [List.foldlM_cons] at h
    cases hread : s.read option.1 option.2 with
    | error e =>
      have htake : s.take values option = .error e := by
        unfold take
        rw [hread]
        rfl
      rw [htake] at h
      cases h
    | ok v =>
      obtain ⟨next, hnext⟩ : ∃ next, s.take values option = .ok next := by
        unfold take
        rw [hread]
        cases v <;> exact ⟨_, rfl⟩
      rw [hnext] at h
      exact List.forall_mem_cons.mpr ⟨⟨v, hread⟩, ih h⟩

/-- Extracted values were read from integers where the schema asks for them. -/
theorem mobility_refresh_of_extract {m : OptionMap} {values : OptionValues}
    (h : mobility.extract m = .ok values) {raw : String} (hraw : m.get? "refresh_ms" = some raw) :
    ∃ n, readInt64? (trim raw) = some n := by
  obtain ⟨v, hv⟩ := read_ok_of_foldlM h _ (SortedMap.get?_eq_some_iff.mp hraw)
  have hkey : mobility.key? "refresh_ms" = some ⟨"refresh_ms", .integer⟩ := rfl
  rw [read, hkey] at hv
  cases hn : readInt64? (trim raw) with
  | none =>
    simp only [hn] at hv
    cases hv
  | some n => exact ⟨n, rfl⟩

end OptionSchema

/-- The options of a wireless network are written as they were read, and none but these. -/
theorem WlanConfig.toMap_of_ofGroups {groups : List ConfigGroup} {config : WlanConfig}
    (h : OptionRecord.ofGroups groups = .ok config) :
    OptionRecord.toMap config =
      (flattenGroups groups).filter fun name _ => wlanNames.contains name := by
  apply SortedMap.ext_get?
  intro name
  have hkept : ∀ raw, (OptionRecord.schema WlanConfig).kept? name raw = _ :=
    OptionSchema.kept?_wlan name
  rw [OptionRecord.wlanConfig_isFaithful.toMap_get? h, SortedMap.get?_filter]
  cases (flattenGroups groups).get? name with
  | none => rfl
  | some raw =>
    rw [Option.bind_some, hkept, Option.filter_some]
    split_ifs <;> rfl

/-- The mobility of a node is written as it was read, and only the refresh interval may be spelled
in another way. -/
theorem MobilityConfig.toMap_of_ofGroups {groups : List ConfigGroup} {config : MobilityConfig}
    (h : OptionRecord.ofGroups groups = .ok config) :
    OptionRecord.toMap config =
      ((flattenGroups groups).filter fun name _ => mobilityNames.contains name).mapValues
        fun name raw => if name = "refresh_ms" then canonicalInteger raw else raw := by
  apply SortedMap.ext_get?
  intro name
  have hkept : ∀ raw, (OptionRecord.schema MobilityConfig).kept? name raw = _ :=
    OptionSchema.kept?_mobility name
  rw [OptionRecord.mobilityConfig_isFaithful.toMap_get? h, SortedMap.get?_mapValues,
    SortedMap.get?_filter]
  cases hraw : (flattenGroups groups).get? name with
  | none => rfl
  | some raw =>
    rw [Option.bind_some, hkept, Option.filter_some]
    by_cases hrefresh : name = "refresh_ms"
    · subst hrefresh
      obtain ⟨values, hvalues, _⟩ := Mapped.bind_eq_ok_iff.mp h
      obtain ⟨n, hn⟩ := OptionSchema.mobility_refresh_of_extract hvalues hraw
      have hmem : mobilityNames.contains "refresh_ms" = true := rfl
      rw [if_pos rfl, hmem, hn]
      simp [canonicalInteger, hn, OptionValue.render]
    · rw [if_neg hrefresh]
      split_ifs
      · simp [OptionValue.render]
      · rfl

end EmuControl
