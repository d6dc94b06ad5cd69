import EmuControl.Options.Schema
import EmuControl.Proofs.DecimalInteger
import EmuControl.Proofs.SortedOrder

/-!
# Typed options and their flat map

A schema fixes what a value may be under a name: of the kind that the first key of the name says, or
text under a name that an open schema does not reserve. Values that keep to this are admissible.
`extract` yields admissible values only, and gives those back that `render` was given. Both
directions come down to one option: `read` undoes `OptionValue.render` on what the schema keeps, and
keeps nothing else.
-/
namespace EmuControl

open EmuControl.Number EmuControl.Text

def OptionValue.kind : OptionValue → ValueKind
  | text _ => .text
  | integer _ => .integer

namespace OptionSchema

/-- The value may stand under the name. -/
def Keeps (s : OptionSchema) (name : String) (v : OptionValue) : Prop :=
  (s.key? name).map OptionKey.kind = some v.kind ∨
    s.key? name = none ∧ s.isOpen = true ∧ v.kind = .text

instance (s : OptionSchema) (name : String) (v : OptionValue) : Decidable (s.Keeps name v) :=
  inferInstanceAs (Decidable (_ ∨ _))

/-- Every value may stand under its name. -/
def Admissible (s : OptionSchema) (values : OptionValues) : Prop :=
  ∀ e ∈ values.entries, s.Keeps e.1 e.2

instance (s : OptionSchema) (values : OptionValues) : Decidable (s.Admissible values) :=
  inferInstanceAs (Decidable (∀ e ∈ values.entries, s.Keeps e.1 e.2))

variable {s : OptionSchema}

theorem Keeps.admits {name : String} {v : OptionValue} (h : s.Keeps name v) :
    s.admits name = true := by
  unfold OptionSchema.admits
  rcases h with h | ⟨_, hopen, _⟩
  · obtain ⟨k, hk, _⟩ := Option.map_eq_some_iff.mp h
    rw [hk, Option.isSome_some, Bool.or_true]
  · rw [hopen, Bool.true_or]

theorem Keeps.read_render {name : String} {v : OptionValue} (h : s.Keeps name v) :
    s.read name v.render = .ok (some v) := by
  unfold read
  rcases h with h | ⟨hk, hopen, hkind⟩
  · obtain ⟨⟨name', kind⟩, hk, hkind⟩ := Option.map_eq_some_iff.mp h
    rw [hk]
    cases v with
    | text raw =>
      obtain rfl : kind = .text := hkind
      rfl
    | integer n =>
      obtain rfl : kind = .integer := hkind
      simp only [OptionValue.render, trim_writeInt64, readInt64?_writeInt64]
  · rw [hk]
    cases v with
    | text raw => simp only [hopen, if_true, OptionValue.render]
    | integer n => cases hkind

theorem keeps_of_read {name raw : String} {v : OptionValue}
    (h : s.read name raw = .ok (some v)) : s.Keeps name v := by
  unfold read at h
  split at h
  · rename_i hk
    split at h
    · cases h
      exact .inl (by rw [hk]; rfl)
    · cases h
  · rename_i hk
    cases h
    exact .inl (by rw [hk]; rfl)
  · rename_i hk
    split at h
    · rename_i hopen
      cases h
      exact .inr ⟨hk, hopen, rfl⟩
    · cases h

/-- An option that is taken in is kept, or passed over. -/
theorem take_cases {values values' : OptionValues} {option : String × String}
    (h : s.take values option = .ok values') :
    values' = values ∨ ∃ v, s.Keeps option.1 v ∧ values' = values.insert option.1 v := by
  unfold take at h
  cases hread : s.read option.1 option.2 with
  | error e =>
    rw [hread] at h
    cases h
  | ok kept =>
    rw [hread] at h
    cases kept with
    | none =>
      cases h
      exact .inl rfl
    | some v =>
      cases h
      exact .inr ⟨v, keeps_of_read hread, rfl⟩

theorem Admissible.take {values values' : OptionValues} {option : String × String}
    (hvalues : s.Admissible values) (h : s.take values option = .ok values') :
    s.Admissible values' := by
  rcases take_cases h with rfl | ⟨v, hv, rfl⟩
  · exact hvalues
  · intro e he
    rcases SortedMap.mem_place he with rfl | he
    · exact hv
    · exact hvalues e he

theorem Admissible.foldlM_take {values values' : OptionValues} {options : List (String × String)}
    (hvalues : s.Admissible values) (h : options.foldlM s.take values = .ok values') :
    s.Admissible values' := by
  induction options generalizing values with
  | nil =>
    cases h
    exact hvalues
  | cons option options ih =>
    rw [List.foldlM_cons] at h
    cases hnext : s.take values option with
    | error e =>
      rw [hnext] at h
      cases h
    | ok next =>
      rw [hnext] at h
      exact ih (hvalues.take hnext) h

theorem admissible_of_extract {m : OptionMap} {values : OptionValues}
    (h : s.extract m = .ok values) : s.Admissible values := by
  have hempty : s.Admissible .empty := fun _ he => nomatch he
  exact hempty.foldlM_take h

/-- Values that a schema keeps are taken in as they are. -/
theorem foldlM_take_render {es : List (String × OptionValue)} (hes : ∀ e ∈ es, s.Keeps e.1 e.2)
    (values : OptionValues) :
    (es.map fun e => (e.1, e.2.render)).foldlM s.take values = .ok (values.insertAll es) := by
  induction es generalizing values with
  | nil => rfl
  | cons e es ih =>
    obtain ⟨he, hes⟩ := List.forall_mem_cons.mp hes
    have htake : s.take values (e.1, e.2.render) = .ok (values.insert e.1 e.2) := by
      unfold take
      rw [he.read_render]
      rfl
    rw [List.map_cons, List.foldlM_cons, htake]
    exact ih hes (values.insert e.1 e.2)

theorem Admissible.entries_render {values : OptionValues} (h : s.Admissible values) :
    (s.render values).entries = values.entries.map fun e => (e.1, e.2.render) := by
  have hall : values.entries.filter (fun e => s.admits e.1) = values.entries :=
    List.filter_eq_self.mpr fun e he => (h e he).admits
  simp only [render, SortedMap.mapValues, SortedMap.filter, hall]

theorem Admissible.extract_render {values : OptionValues} (h : s.Admissible values) :
    s.extract (s.render values) = .ok values := by
  rw [extract, h.entries_render, foldlM_take_render h]
  exact congrArg Except.ok (SortedMap.ofList_entries values)

theorem encodeOptions_eq (s : OptionSchema) (options : List ConfigOption) :
    s.encodeOptions options = (s.extract (flattenOptions options)).map s.render := by
  unfold encodeOptions
  cases s.extract (flattenOptions options) <;> rfl

/-- What was rendered from a flat map is rendered from itself. -/
theorem map_render_extract {m m' : OptionMap} (h : (s.extract m).map s.render = .ok m') :
    (s.extract m').map s.render = .ok m' := by
  cases hvalues : s.extract m with
  | error e =>
    rw [hvalues] at h
    cases h
  | ok values =>
    rw [hvalues] at h
    cases h
    rw [(admissible_of_extract hvalues).extract_render]
    rfl

/-- Under every schema, rendering and extracting give admissible values back, and extracting gives
no others. So a flat map that was rendered from extracted values stays as it is, and options that
are sent again as they were encoded are encoded in the same way. -/
theorem extract_render_inverse (s : OptionSchema) :
    (∀ values, s.Admissible values → s.extract (s.render values) = .ok values) ∧
    (∀ m values, s.extract m = .ok values → s.Admissible values) ∧
    (∀ m m', (s.extract m).map s.render = .ok m' → (s.extract m').map s.render = .ok m') ∧
    ∀ options m, s.encodeOptions options = .ok m →
      ∀ again : List ConfigOption, (again.map fun o => (o.name, o.value)) = m.entries →
        s.encodeOptions again = .ok m := by
  refine ⟨fun _ => Admissible.extract_render, fun _ _ => admissible_of_extract,
    fun _ _ => map_render_extract, fun options m h again hagain => ?_⟩
  have hflat : flattenOptions again = m := by
    rw [flattenOptions, hagain]
    exact SortedMap.ofList_entries m
  rw [encodeOptions_eq] at h
  rw [encodeOptions_eq, hflat]
  exact map_render_extract h

/-- An open schema that reserves a name twice, for an integer first. -/
def twofold : OptionSchema where
  domain := "radio"
  keys := [⟨"rate", .integer⟩, ⟨"rate", .text⟩, ⟨"mode", .text⟩]
  isOpen := true

theorem twofold_inverse :
    let values : OptionValues :=
      .ofList [("rate", .integer (-9223372036854775808)), ("mode", .text " 7 "), ("", .text "")]
    let options : List ConfigOption :=
      [⟨0, "", "rate", "x", []⟩, ⟨3, "Rate", "rate", " +007\t", []⟩, ⟨0, "", "mode", " 7 ", ["a"]⟩]
    let m : OptionMap := .ofList [("rate", "7"), ("mode", " 7 ")]
    twofold.Admissible values ∧ twofold.extract (twofold.render values) = .ok values ∧
      twofold.encodeOptions options = .ok m ∧
      twofold.encodeOptions (m.entries.map fun e => ⟨1, "again", e.1, e.2, []⟩) = .ok m := by
  intro values options m
  obtain ⟨hinverse, _, _, hagain⟩ := extract_render_inverse twofold
  have hvalues : twofold.Admissible values := by decide +kernel
  have hencoded : twofold.encodeOptions options = .ok m := by decide +kernel
  exact ⟨hvalues, hinverse values hvalues, hencoded, hagain options m hencoded _ rfl⟩

end OptionSchema

end EmuControl
