import EmuControl.Proofs.OptionRecord

/-!
# Records in groups of any shape

The daemon may put the options of a record into groups as it likes, in any order and among options
of its own. The flat map of the groups depends only on their options in sequence: of several with
one name the last counts, and where a name occurs once the order does not matter either. A closed
schema extracts from a map what it extracts from the reserved names alone, so what a record was
written as is all that reading it again has to find.
-/
namespace EmuControl

open EmuControl.Number EmuControl.Text

/-- The options of all groups in sequence, by name and value. -/
def groupedPairs (groups : List ConfigGroup) : List (String × String) :=
  (groups.flatMap ConfigGroup.options).map fun o => (o.name, o.value)

namespace SortedMap

variable {κ ν : Type} [Ord κ] [Std.TransOrd κ] [Std.LawfulEqOrd κ]

theorem get?_ofList (es : List (κ × ν)) (k : κ) : (ofList es).get? k = lookup k es.reverse := by
  rw [ofList, get?_insertAll, get?_empty, Option.or_none]

/-- Of the entries of a list the last one of a key is in the map. -/
theorem get?_ofList_eq_some_iff {es : List (κ × ν)} {k : κ} {v : ν} :
    (ofList es).get? k = some v ↔
      ∃ before after, es = before ++ (k, v) :: after ∧ k ∉ after.map (·.1) := by
  rw [get?_ofList, lookup_eq_some_iff]
  constructor
  · intro h
    obtain ⟨before, after, hes, hbefore⟩ := h
    refine ⟨after.reverse, before.reverse, ?_, ?_⟩
    · rw [List.reverse_eq_iff.mp hes, List.reverse_append, List.reverse_cons, List.append_assoc]
      rfl
    · rwa [List.map_reverse, List.mem_reverse]
  · intro h
    obtain ⟨before, after, rfl, hafter⟩ := h
    refine ⟨after.reverse, before.reverse, ?_, ?_⟩
    · rw [List.reverse_append, List.reverse_cons, List.append_assoc]
      rfl
    · rwa [List.map_reverse, List.mem_reverse]

theorem get?_ofList_eq_none_iff {es : List (κ × ν)} {k : κ} :
    (ofList es).get? k = none ↔ k ∉ es.map (·.1) := by
  rw [get?_ofList, lookup_eq_none_iff, List.map_reverse, List.mem_reverse]

theorem get?_ofList_append (es es' : List (κ × ν)) (k : κ) :
    (ofList (es ++ es')).get? k = ((ofList es').get? k).or ((ofList es).get? k) := by
  simp only [get?_ofList, List.reverse_append, lookup_append]

theorem insertAll_append (m : SortedMap κ ν) (es es' : List (κ × ν)) :
    m.insertAll (es ++ es') = (m.insertAll es).insertAll es' :=
  List.foldl_append

/-- Entries may be gathered in a map of their own before they are put in. -/
theorem insertAll_entries_ofList (m : SortedMap κ ν) (es : List (κ × ν)) :
    m.insertAll (ofList es).entries = m.insertAll es := by
  apply ext_get?
  intro k
  rw [get?_insertAll, get?_insertAll, lookup_reverse (ofList es).sorted]
  exact congrArg (Option.or · (m.get? k)) (get?_ofList es k)

end SortedMap

theorem foldl_insertAll_flattenOptions (groups : List ConfigGroup) (m : OptionMap) :
    groups.foldl (fun m g => m.insertAll (flattenOptions g.options).entries) m =
      m.insertAll (groupedPairs groups) := by
  induction groups generalizing m with
  | nil => rfl
  | cons g groups ih =>
    have hpairs : groupedPairs (g :: groups) =
        (g.options.map fun o => (o.name, o.value)) ++ groupedPairs groups := by
      simp [groupedPairs]
    rw [List.foldl_cons, ih, hpairs, SortedMap.insertAll_append, flattenOptions,
      SortedMap.insertAll_entries_ofList]

/-- Groups count only by the sequence of their options. -/
theorem flattenGroups_eq_ofList (groups : List ConfigGroup) :
    flattenGroups groups = SortedMap.ofList (groupedPairs groups) :=
  foldl_insertAll_flattenOptions groups .empty

/-- Of the options with this name the last one has this value. -/
def LastHas (options : List ConfigOption) (name value : String) : Prop :=
  ∃ before o after, options = before ++ o :: after ∧ o.name = name ∧ o.value = value ∧
    ∀ later ∈ after, later.name ≠ name

theorem not_mem_names_iff {options : List ConfigOption} {name : String} :
    name ∉ (options.map fun o => (o.name, o.value)).map (·.1) ↔ ∀ o ∈ options, o.name ≠ name := by
  simp

theorem get?_flattenOptions_eq_some_iff {options : List ConfigOption} {name value : String} :
    (flattenOptions options).get? name = some value ↔ LastHas options name value := by
  rw [flattenOptions, SortedMap.get?_ofList_eq_some_iff]
  constructor
  · intro h
    obtain ⟨_, _, hsplit, hafter⟩ := h
    obtain ⟨before, tail, rfl, -, htail⟩ := List.map_eq_append_iff.mp hsplit
    obtain ⟨o, after, rfl, ho, rfl⟩ := List.map_eq_cons_iff.mp htail
    obtain ⟨hname, hvalue⟩ := Prod.mk.inj ho
    exact ⟨before, o, after, rfl, hname, hvalue, not_mem_names_iff.mp hafter⟩
  · intro h
    obtain ⟨before, o, after, rfl, rfl, rfl, hafter⟩ := h
    exact ⟨_, _, List.map_append, not_mem_names_iff.mpr hafter⟩

theorem get?_flattenOptions_eq_none_iff {options : List ConfigOption} {name : String} :
    (flattenOptions options).get? name = none ↔ ∀ o ∈ options, o.name ≠ name := by
  rw [flattenOptions, SortedMap.get?_ofList_eq_none_iff, not_mem_names_iff]

/-- A name has in the flat map of groups the value of its last option, in whichever groups its
options stand, and it is missing exactly when there is none. So the map is that of the options in
sequence, and groups that are appended override what stands before them. -/
theorem last_option_wins (groups : List ConfigGroup) (name : String) :
    let options := groups.flatMap ConfigGroup.options
    (∀ value, (flattenGroups groups).get? name = some value ↔ LastHas options name value) ∧
    ((flattenGroups groups).get? name = none ↔ ∀ o ∈ options, o.name ≠ name) ∧
    flattenGroups groups = flattenOptions options ∧
    ∀ later, (flattenGroups (groups ++ later)).get? name =
      ((flattenGroups later).get? name).or ((flattenGroups groups).get? name) := by
  intro options
  have hflat : flattenGroups groups = flattenOptions options := flattenGroups_eq_ofList groups
  refine ⟨fun value => ?_, ?_, hflat, fun later => ?_⟩
  · rw [hflat, get?_flattenOptions_eq_some_iff]
  · rw [hflat, get?_flattenOptions_eq_none_iff]
  · have hpairs : groupedPairs (groups ++ later) = groupedPairs groups ++ groupedPairs later := by
      simp [groupedPairs]
    rw [flattenGroups_eq_ofList, hpairs, SortedMap.get?_ofList_append, flattenGroups_eq_ofList,
      flattenGroups_eq_ofList]

/-- One name occurs twice in a group, another in two groups that are named alike. -/
example :
    flattenGroups
      [⟨"a", [⟨0, "", "x", "1", []⟩, ⟨0, "", "y", "2", []⟩, ⟨0, "", "x", "3", []⟩]⟩, ⟨"b", []⟩,
       ⟨"a", [⟨0, "", "y", "", []⟩, ⟨0, "", "z", "4", []⟩]⟩] =
      .ofList [("x", "3"), ("y", ""), ("z", "4")] := by
  decide +kernel

namespace OptionSchema

variable {s : OptionSchema}

theorem take_of_admits_eq_false {values : OptionValues} {option : String × String}
    (h : s.admits option.1 = false) : s.take values option = .ok values := by
  unfold admits at h
  rw [Bool.or_eq_false_iff, Option.isSome_eq_false_iff, Option.isNone_iff_eq_none] at h
  unfold take read
  rw [h.2, h.1]
  rfl

theorem foldlM_take_filter (options : List (String × String)) (values : OptionValues) :
    (options.filter fun option => s.admits option.1).foldlM s.take values =
      options.foldlM s.take values := by
  induction options generalizing values with
  | nil => rfl
  | cons option options ih =>
    cases hadmits : s.admits option.1 with
    | true =>
      rw [List.filter_cons, if_pos hadmits, List.foldlM_cons, List.foldlM_cons]
      exact congrArg (s.take values option >>= ·) (funext ih)
    | false =>
      rw [List.filter_cons, if_neg (Bool.eq_false_iff.mp hadmits), List.foldlM_cons,
        take_of_admits_eq_false hadmits, ih]
      rfl

/-- What the schema does not admit has no part in extraction. -/
theorem extract_filter_admits (s : OptionSchema) (m : OptionMap) :
    s.extract (m.filter fun name _ => s.admits name) = s.extract m :=
  foldlM_take_filter m.entries .empty

end OptionSchema

namespace OptionRecord

variable {α : Type} [OptionRecord α]

/-- The options of the groups are those that the record is written as, each of them once, and others
whose names the schema does not reserve. Their order and their distribution are left open. -/
def Carries (groups : List ConfigGroup) (a : α) : Prop :=
  ∃ others : List (String × String),
    (groupedPairs groups).Perm ((toMap a).entries ++ others) ∧
    ∀ option ∈ others, (schema α).key? option.1 = none

/-- Under the names that the schema admits, groups that carry a record are what it is written as. -/
theorem Carries.flattenGroups_filter {groups : List ConfigGroup} {a : α} (h : Carries groups a)
    (hclosed : (schema α).isOpen = false) :
    (flattenGroups groups).filter (fun name _ => (schema α).admits name) =
      (toMap a).filter fun name _ => (schema α).admits name := by
  obtain ⟨others, hperm, hothers⟩ := h
  -- An option with an admitted name is one of the record.
  have hmem : ∀ name value, (schema α).admits name = true →
      ((name, value) ∈ (groupedPairs groups).reverse ↔ (name, value) ∈ (toMap a).entries) := by
    intro name value hname
    rw [OptionSchema.admits, hclosed, Bool.false_or] at hname
    rw [List.mem_reverse, hperm.mem_iff, List.mem_append, or_iff_left]
    intro hother
    rw [hothers _ hother] at hname
    cases hname
  apply SortedMap.ext_get?
  intro name
  rw [SortedMap.get?_filter, SortedMap.get?_filter, flattenGroups_eq_ofList, SortedMap.get?_ofList]
  cases hname : (schema α).admits name with
  | false => cases SortedMap.lookup name (groupedPairs groups).reverse <;>
      cases (toMap a).get? name <;> rfl
  | true =>
    congr 1
    cases hlookup : SortedMap.lookup name (groupedPairs groups).reverse with
    | some value =>
      have hvalue := (hmem name value hname).mp (SortedMap.mem_of_lookup hlookup)
      exact (SortedMap.get?_eq_some_iff.mpr hvalue).symm
    | none =>
      refine (Option.eq_none_iff_forall_ne_some.mpr fun value hvalue => ?_).symm
      have hback := (hmem name value hname).mpr (SortedMap.get?_eq_some_iff.mp hvalue)
      exact SortedMap.not_mem_of_lookup_eq_none hlookup hback

/-- The fields of a record are among what the schema keeps, and can be told from it. -/
def IsRecoverable (α : Type) [OptionRecord α] : Prop :=
  ∀ a : α, (schema α).Admissible (toValues a) ∧ ofValues (toValues a) = a

theorem IsRecoverable.ofGroups_of_carries (hα : IsRecoverable α)
    (hclosed : (schema α).isOpen = false) {groups : List ConfigGroup} {a : α}
    (h : Carries groups a) : ofGroups groups = .ok a := by
  obtain ⟨hadmissible, hvalues⟩ := hα a
  have hextract : (schema α).extract (flattenGroups groups) = .ok (toValues a) := calc
    _ = (schema α).extract ((toMap a).filter fun name _ => (schema α).admits name) := by
      rw [← OptionSchema.extract_filter_admits, h.flattenGroups_filter hclosed]
    _ = (schema α).extract ((schema α).render (toValues a)) :=
      OptionSchema.extract_filter_admits ..
    _ = .ok (toValues a) := hadmissible.extract_render
  rw [ofGroups, hextract]
  exact congrArg Except.ok hvalues

end OptionRecord

namespace OptionValues

theorem text?_of_get? {values : OptionValues} {name : String} {o : Option String}
    (h : values.get? name = o.map .text) : text? values name = o := by
  rw [text?, h]
  cases o <;> rfl

theorem integer?_of_get? {values : OptionValues} {name : String} {o : Option Int64}
    (h : values.get? name = o.map .integer) : integer? values name = o := by
  rw [integer?, h]
  cases o <;> rfl

/-- A field may stand under a name that is reserved for its kind. -/
theorem keeps_text {s : OptionSchema} {name : String} (hkey : s.key? name = some ⟨name, .text⟩)
    {o : Option String} {v : OptionValue} (h : o.map .text = some v) : s.Keeps name v := by
  obtain ⟨raw, -, rfl⟩ := Option.map_eq_some_iff.mp h
  exact .inl (by rw [hkey]; rfl)

theorem keeps_integer {s : OptionSchema} {name : String}
    (hkey : s.key? name = some ⟨name, .integer⟩) {o : Option Int64} {v : OptionValue}
    (h : o.map .integer = some v) : s.Keeps name v := by
  obtain ⟨n, -, rfl⟩ := Option.map_eq_some_iff.mp h
  exact .inl (by rw [hkey]; rfl)

end OptionValues

namespace OptionRecord

open OptionValues

theorem wlanConfig_isRecoverable : IsRecoverable WlanConfig := by
  intro config
  constructor
  · intro e he
    have hv := SortedMap.get?_eq_some_iff.mpr he
    simp only [toValues, get?_setText, SortedMap.get?_empty] at hv
    split_ifs at hv with h₁ h₂ h₃ h₄ h₅
    · rw [h₁]; exact keeps_text rfl hv
    · rw [h₂]; exact keeps_text rfl hv
    · rw [h₃]; exact keeps_text rfl hv
    · rw [h₄]; exact keeps_text rfl hv
    · rw [h₅]; exact keeps_text rfl hv
  · simp only [ofValues]
    congr 1 <;> exact text?_of_get? (by simp [toValues, get?_setText])

theorem mobilityConfig_isRecoverable : IsRecoverable MobilityConfig := by
  intro config
  constructor
  · intro e he
    have hv := SortedMap.get?_eq_some_iff.mpr he
    simp only [toValues, get?_setText, get?_setInteger, SortedMap.get?_empty] at hv
    split_ifs at hv with h₁ h₂ h₃ h₄ h₅ h₆ h₇ h₈
    · rw [h₁]; exact keeps_text rfl hv
    · rw [h₂]; exact keeps_text rfl hv
    · rw [h₃]; exact keeps_text rfl hv
    · rw [h₄]; exact keeps_text rfl hv
    · rw [h₅]; exact keeps_text rfl hv
    · rw [h₆]; exact keeps_text rfl hv
    · rw [h₇]; exact keeps_integer rfl hv
    · rw [h₈]; exact keeps_text rfl hv
  · simp only [ofValues]
    congr 1
    case e_refreshMs =>
      exact integer?_of_get? (by simp [toValues, get?_setText, get?_setInteger])
    all_goals exact text?_of_get? (by simp [toValues, get?_setText, get?_setInteger])

/-- However the daemon groups and orders the options that a record is written as, and whatever
options of other names it puts between them, the record that is read is the same. -/
theorem ofGroups_grouping_independent :
    (∀ (config : WlanConfig) groups, Carries groups config → ofGroups groups = .ok config) ∧
    ∀ (config : MobilityConfig) groups, Carries groups config → ofGroups groups = .ok config :=
  ⟨fun _ _ => wlanConfig_isRecoverable.ofGroups_of_carries rfl,
    fun _ _ => mobilityConfig_isRecoverable.ofGroups_of_carries rfl⟩

/-- Padded and blank texts come back as they are, over groups of which one is empty. -/
theorem ofGroups_scattered :
    let wlan : WlanConfig := ⟨some " 54000000 ", none, some "", none, some "\t275"⟩
    let mobility : MobilityConfig :=
      ⟨some "", some (-9223372036854775808), none, some " ", none, none, none, some "stop.sh\n"⟩
    let wlanGroups : List ConfigGroup :=
      [⟨"b", [⟨7, "", "range", "\t275", []⟩, ⟨0, "", "Range", "1", []⟩]⟩, ⟨"", []⟩,
       ⟨"a", [⟨0, "x", "error", "", ["y"]⟩, ⟨0, "", "Range", "2", []⟩,
              ⟨0, "", "bandwidth", " 54000000 ", []⟩]⟩]
    let mobilityGroups : List ConfigGroup :=
      [⟨"a", [⟨0, "", "script_stop", "stop.sh\n", []⟩, ⟨0, "", "loop", " ", []⟩]⟩,
       ⟨"a", [⟨0, "", "refresh", "x", []⟩, ⟨0, "", "refresh_ms", "-9223372036854775808", []⟩]⟩,
       ⟨"c", [⟨0, "", "file", "", []⟩]⟩]
    ofGroups wlanGroups = .ok wlan ∧ ofGroups mobilityGroups = .ok mobility := by
  intro wlan mobility wlanGroups mobilityGroups
  obtain ⟨hwlan, hmobility⟩ := ofGroups_grouping_independent
  have hwlanCarried : Carries wlanGroups wlan :=
    ⟨[("Range", "1"), ("Range", "2")], by decide +kernel, by decide +kernel⟩
  have hmobilityCarried : Carries mobilityGroups mobility :=
    ⟨[("refresh", "x")], by decide +kernel, by decide +kernel⟩
  exact ⟨hwlan _ _ hwlanCarried, hmobility _ _ hmobilityCarried⟩

end OptionRecord

end EmuControl
