import EmuControl.Options.Record
import Mathlib.Data.List.Basic

/-!
# What option schemas accept

A schema refuses a map only for an integer that is none. One that reserves no name for an integer,
as that of wireless networks does, therefore takes every map there is.
-/
namespace EmuControl

namespace OptionSchema

/-- No name is reserved for an integer. -/
def IsTextual (s : OptionSchema) : Prop :=
  ∀ k ∈ s.keys, k.kind = .text

instance (s : OptionSchema) : Decidable s.IsTextual :=
  inferInstanceAs (Decidable (∀ k ∈ s.keys, k.kind = .text))

variable {s : OptionSchema}

theorem IsTextual.read_ok (hs : s.IsTextual) (name raw : String) :
    ∃ v, s.read name raw = .ok v := by
  unfold read
  split
  · rename_i hk
    have hmem := List.mem_of_find?_eq_some hk
    cases hs _ hmem
  · exact ⟨_, rfl⟩
  · exact ⟨_, rfl⟩

theorem IsTextual.take_ok (hs : s.IsTextual) (values : OptionValues) (option : String × String) :
    ∃ values', s.take values option = .ok values' := by
  obtain ⟨v, hv⟩ := hs.read_ok option.1 option.2
  unfold take
  rw [hv]
  cases v <;> exact ⟨_, rfl⟩

theorem IsTextual.extract_ok (hs : s.IsTextual) (m : OptionMap) :
    ∃ values, s.extract m = .ok values := by
  unfold extract
  generalize (SortedMap.empty : OptionValues) = values
  induction m.entries generalizing values with
  | nil => exact ⟨values, rfl⟩
  | cons option options ih =>
    obtain ⟨values', h⟩ := hs.take_ok values option
    rw [List.foldlM_cons, h]
    exact ih values'

end OptionSchema

/-- The options of a wireless network can be read from whatever groups there are. -/
theorem WlanConfig.ofGroups_ok (groups : List ConfigGroup) :
    ∃ config : WlanConfig, OptionRecord.ofGroups groups = .ok config := by
  have hs : OptionSchema.wlan.IsTextual := by decide
  obtain ⟨values, h⟩ := hs.extract_ok (flattenGroups groups)
  refine ⟨OptionRecord.ofValues values, ?_⟩
  change (OptionSchema.wlan.extract (flattenGroups groups) >>= _) = _
  rw [h]
  rfl

end EmuControl
