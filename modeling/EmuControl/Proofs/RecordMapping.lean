import EmuControl.Mapping.Configuration
import EmuControl.Mapping.Service
import EmuControl.Proofs.SessionSnapshot

/-!
# Hooks, services and configuration through the wire and back

Each of these records has the same parts in the model and on the wire, in another order and some of
them in another form: the data of a hook is text here and bytes there, the timer of a service is
text here and an integer there, the default services are a map of sets here and a list of lists
there, and a location has 64 bits here and 32 bits there. Going out and coming in again undoes these
changes of form as far as nothing was lost in them, and so does coming in and going out again.
-/
namespace EmuControl

open EmuControl.Number EmuControl.Text

namespace Bytes

/-- The bytes are the UTF-8 form of a text. -/
def IsText (bytes : Bytes) : Prop :=
  ∃ s, ofText s = bytes

theorem isText_of_toText? {bytes : Bytes} {s : String} (h : toText? bytes = some s) :
    IsText bytes :=
  ⟨s, ofText_of_toText? h⟩

theorem not_isText_of_toText? {bytes : Bytes} (h : toText? bytes = none) : ¬ IsText bytes := by
  intro htext
  obtain ⟨s, rfl⟩ := htext
  rw [toText?_ofText] at h
  cases h

end Bytes

namespace Hook

theorem ofWire_toWire (h : Hook) : ofWire h.toWire = .ok h := by
  have hstate : SessionState.ofNumber h.state.number = .ok h.state :=
    SessionState.ofNumber_eq_ok_iff.mpr rfl
  simp only [ofWire, toWire, Bytes.toText?_ofText, hstate]
  rfl

/-- A hook is taken in with its data as text and its number as a state. -/
theorem ofWire_eq_ok_iff {w : Wire.Hook} {h : Hook} :
    ofWire w = .ok h ↔
      Bytes.ofText h.data = w.data ∧ h.state.number = w.state ∧ h.file = w.file := by
  constructor
  · intro hw
    unfold ofWire at hw
    split at hw
    · cases hw
    · rename_i text htext
      obtain ⟨state, hstate, hw⟩ := Mapped.bind_eq_ok_iff.mp hw
      obtain rfl := Except.ok.inj hw
      exact ⟨Bytes.ofText_of_toText? htext, SessionState.ofNumber_eq_ok_iff.mp hstate, rfl⟩
  · intro hw
    obtain ⟨hdata, hstate, hfile⟩ := hw
    have hsame : h.toWire = w := by
      rw [toWire, hdata, hstate, hfile]
    rw [← hsame, ofWire_toWire]

theorem toWire_of_ofWire {w : Wire.Hook} {h : Hook} (hw : ofWire w = .ok h) : h.toWire = w := by
  obtain ⟨hdata, hstate, hfile⟩ := ofWire_eq_ok_iff.mp hw
  rw [toWire, hdata, hstate, hfile]

theorem exists_ofWire_iff {w : Wire.Hook} :
    (∃ h, ofWire w = .ok h) ↔ w.data.IsText ∧ w.state ∈ [0, 1, 2, 3, 4, 5, 6] := by
  simp only [← SessionState.exists_ofNumber_iff, SessionState.ofNumber_eq_ok_iff, ofWire_eq_ok_iff]
  constructor
  · intro hw
    obtain ⟨h, hdata, hstate, -⟩ := hw
    exact ⟨⟨h.data, hdata⟩, h.state, hstate⟩
  · intro hw
    obtain ⟨⟨data, hdata⟩, state, hstate⟩ := hw
    exact ⟨⟨state, w.file, data⟩, hdata, hstate, rfl⟩

/-- Data that is no text is reported whatever the state is. -/
theorem ofWire_eq_error_iff {w : Wire.Hook} {e : MappingError} :
    ofWire w = .error e ↔
      ¬ w.data.IsText ∧ e = .invalidText ("hook " ++ w.file) ∨
      w.data.IsText ∧ w.state ∉ [0, 1, 2, 3, 4, 5, 6] ∧
        e = .unknownMember "session state" w.state := by
  unfold ofWire
  cases htext : Bytes.toText? w.data with
  | none =>
    have hno := Bytes.not_isText_of_toText? htext
    simp [hno, eq_comm]
  | some text =>
    have hyes := Bytes.isText_of_toText? htext
    simp only [hyes, not_true_eq_false, false_and, false_or, true_and]
    rw [Mapped.bind_eq_error_iff, SessionState.ofNumber_eq_error_iff]
    constructor
    · intro h
      rcases h with h | ⟨_, _, h⟩
      · exact h
      · cases h
    · exact .inl

end Hook

theorem ValidationMode.mem_all (m : ValidationMode) : m ∈ all := by
  cases m <;> decide

theorem ValidationMode.ofNumber_eq_ok_iff {n : Int32} {m : ValidationMode} :
    ValidationMode.ofNumber n = .ok m ↔ m.number = n :=
  Mapped.member_eq_ok_iff mem_all (by decide)

theorem ValidationMode.exists_ofNumber_iff {n : Int32} :
    (∃ m, ValidationMode.ofNumber n = .ok m) ↔ n ∈ [0, 1, 2] := by
  have hnumbers : [0, 1, 2] = all.map number := by decide
  simp only [ofNumber_eq_ok_iff, hnumbers, List.mem_map, mem_all, true_and]

namespace ServiceData

/-- With its timer in canonical decimal. -/
def normalized (d : ServiceData) : ServiceData :=
  { d with validationTimer := canonicalDecimal d.validationTimer }

/-- What is sent for a service whose timer is sent as given. -/
def sent (d : ServiceData) (timer : Int32) : Wire.ServiceData where
  executables := d.executables
  dependencies := d.dependencies
  dirs := d.dirs
  configs := d.configs
  startup := d.startup
  validate := d.validate
  validationMode := d.validationMode.number
  validationTimer := timer
  shutdown := d.shutdown
  metadata := d.metadata

theorem toWire_eq_ok_iff {d : ServiceData} {w : Wire.ServiceData} :
    d.toWire = .ok w ↔
      ∃ timer : Int32, IsDecimal (trim d.validationTimer).toList timer.toInt ∧ w = d.sent timer := by
  unfold toWire
  rw [Mapped.bind_eq_ok_iff]
  simp only [Mapped.int32_eq_ok_iff]
  constructor
  · intro h
    obtain ⟨timer, htimer, h⟩ := h
    exact ⟨timer, htimer, (Except.ok.inj h).symm⟩
  · intro h
    obtain ⟨timer, htimer, rfl⟩ := h
    exact ⟨timer, htimer, rfl⟩

theorem exists_toWire_iff {d : ServiceData} :
    (∃ w, d.toWire = .ok w) ↔ HoldsInt32 d.validationTimer := by
  simp only [toWire_eq_ok_iff, HoldsInt32]
  constructor
  · intro h
    obtain ⟨_, timer, htimer, -⟩ := h
    exact ⟨timer, htimer⟩
  · intro h
    obtain ⟨timer, htimer⟩ := h
    exact ⟨d.sent timer, timer, htimer, rfl⟩

theorem ofWire_of_toWire {d : ServiceData} {w : Wire.ServiceData} (h : d.toWire = .ok w) :
    ofWire w = .ok d.normalized := by
  obtain ⟨timer, htimer, rfl⟩ := toWire_eq_ok_iff.mp h
  have hmode : ValidationMode.ofNumber (d.sent timer).validationMode = .ok d.validationMode :=
    ValidationMode.ofNumber_eq_ok_iff.mpr rfl
  rw [ofWire, hmode, normalized, canonicalDecimal_eq htimer]
  rfl

theorem toWire_of_ofWire {w : Wire.ServiceData} {d : ServiceData} (h : ofWire w = .ok d) :
    d.toWire = .ok w := by
  obtain ⟨mode, hmode, h⟩ := Mapped.bind_eq_ok_iff.mp h
  obtain rfl := Except.ok.inj h
  rw [toWire, Mapped.int32_writeInt32, ValidationMode.ofNumber_eq_ok_iff.mp hmode]
  rfl

theorem exists_ofWire_iff {w : Wire.ServiceData} :
    (∃ d, ofWire w = .ok d) ↔ w.validationMode ∈ [0, 1, 2] := by
  rw [← ValidationMode.exists_ofNumber_iff]
  constructor
  · intro h
    obtain ⟨d, h⟩ := h
    obtain ⟨mode, hmode, -⟩ := Mapped.bind_eq_ok_iff.mp h
    exact ⟨mode, hmode⟩
  · intro h
    obtain ⟨mode, hmode⟩ := h
    exact ⟨_, Mapped.bind_eq_ok_iff.mpr ⟨mode, hmode, rfl⟩⟩

end ServiceData

theorem ServiceDefaults.ofWire_toWire (d : ServiceDefaults) : ofWire (toWire d) = d := by
  have hentries : (toWire d).map (fun w => (w.nodeType, SortedSet.ofList w.services)) =
      d.entries := by
    rw [toWire, List.map_map]
    refine (List.map_congr_left fun e _ => ?_).trans (List.map_id d.entries)
    exact congrArg (e.1, ·) (SortedSet.ofList_toList e.2)
  rw [ofWire, hentries]
  exact SortedMap.ofList_entries d

namespace ConfigGroup

theorem ofWire_toWire (g : ConfigGroup) : ofWire g.toWire = g := by
  have hoptions : (g.options.map ConfigOption.toWire).map ConfigOption.ofWire = g.options := by
    rw [List.map_map]
    exact List.map_id g.options
  rw [ofWire, toWire, hoptions]

theorem toWire_ofWire (w : Wire.ConfigGroup) : (ofWire w).toWire = w := by
  have hoptions : (w.options.map ConfigOption.ofWire).map ConfigOption.toWire = w.options := by
    rw [List.map_map]
    exact List.map_id w.options
  rw [toWire, ofWire, hoptions]

end ConfigGroup

namespace LocationConfig

/-- With every number rounded to 32 bits. -/
def normalized (c : LocationConfig) : LocationConfig where
  scale := c.scale.map rounded
  position := ⟨c.position.x.map rounded, c.position.y.map rounded, c.position.z.map rounded⟩
  location :=
    ⟨c.location.latitude.map rounded, c.location.longitude.map rounded,
      c.location.altitude.map rounded⟩

theorem ofWire_toWire (c : LocationConfig) :
    ofWire (some c.toWire.1) c.toWire.2 = c.normalized := by
  simp only [ofWire, toWire, normalized, Option.getD_some, map_widen_map_narrow]

end LocationConfig

/-- Hooks, services, defaults, groups of options and locations come back as they went out: hooks,
defaults and groups unchanged, a service with its timer in canonical decimal, and a location with
its numbers rounded and the same ones open. What comes in goes out unchanged, if it can come in at
all: a hook must be text and have a known state, and a service must have a known mode. -/
theorem records_invert :
    ((∀ h : Hook, Hook.ofWire h.toWire = .ok h) ∧
      ∀ w : Wire.Hook,
        ((∃ h, Hook.ofWire w = .ok h) ↔ w.data.IsText ∧ w.state ∈ [0, 1, 2, 3, 4, 5, 6]) ∧
        (∀ e, Hook.ofWire w = .error e ↔
          ¬ w.data.IsText ∧ e = .invalidText ("hook " ++ w.file) ∨
          w.data.IsText ∧ w.state ∉ [0, 1, 2, 3, 4, 5, 6] ∧
            e = .unknownMember "session state" w.state) ∧
        ∀ h, Hook.ofWire w = .ok h → h.toWire = w) ∧
    ((∀ d : ServiceData,
        ((∃ w, d.toWire = .ok w) ↔ HoldsInt32 d.validationTimer) ∧
        ∀ w, d.toWire = .ok w → ServiceData.ofWire w = .ok
          { d with validationTimer := canonicalDecimal d.validationTimer }) ∧
      ∀ w : Wire.ServiceData, w.validationMode ∈ [0, 1, 2] →
        ServiceData.ofWire w >>= ServiceData.toWire = .ok w) ∧
    (∀ d : ServiceDefaults, ServiceDefaults.ofWire (ServiceDefaults.toWire d) = d) ∧
    ((∀ groups : List ConfigGroup, (groups.map ConfigGroup.toWire).map ConfigGroup.ofWire = groups) ∧
      ∀ groups : List Wire.ConfigGroup,
        (groups.map ConfigGroup.ofWire).map ConfigGroup.toWire = groups) ∧
    ∀ c : LocationConfig, LocationConfig.ofWire (some c.toWire.1) c.toWire.2 = c.normalized := by
  refine ⟨⟨Hook.ofWire_toWire, fun w => ⟨Hook.exists_ofWire_iff,
    fun e => Hook.ofWire_eq_error_iff, fun h => Hook.toWire_of_ofWire⟩⟩,
    ⟨fun d => ⟨ServiceData.exists_toWire_iff, fun w => ServiceData.ofWire_of_toWire⟩, ?_⟩,
    ServiceDefaults.ofWire_toWire, ⟨?_, ?_⟩, LocationConfig.ofWire_toWire⟩
  · intro w hmode
    obtain ⟨d, hd⟩ := ServiceData.exists_ofWire_iff.mpr hmode
    exact Mapped.bind_eq_ok_iff.mpr ⟨d, hd, ServiceData.toWire_of_ofWire hd⟩
  · intro groups
    rw [List.map_map]
    exact (List.map_congr_left fun g _ => g.ofWire_toWire).trans (List.map_id groups)
  · intro groups
    rw [List.map_map]
    exact (List.map_congr_left fun w _ => ConfigGroup.toWire_ofWire w).trans (List.map_id groups)

/-- A hook with a character of two bytes. -/
def accentedHook : Wire.Hook where
  state := 4
  file := "ready.sh"
  data := [0x63, 0xC3, 0xA9]

/-- A service whose timer has blanks, a sign and zeros around its digits. -/
def paddedService : ServiceData where
  executables := ["zebra"]
  dependencies := []
  dirs := ["/var"]
  configs := ["a", "b"]
  startup := ["up"]
  validate := []
  shutdown := ["down"]
  metadata := "m"
  validationMode := .timer
  validationTimer := "\t+007 "

theorem accentedHook_paddedService_invert :
    (∃ h, Hook.ofWire accentedHook = .ok h ∧ h.toWire = accentedHook) ∧
    (∃ w, paddedService.toWire = .ok w ∧
      ServiceData.ofWire w = .ok { paddedService with validationTimer := "7" }) ∧
    ServiceData.ofWire (paddedService.sent (-5)) >>= ServiceData.toWire =
      .ok (paddedService.sent (-5)) := by
  obtain ⟨⟨-, hhook⟩, ⟨hservice, hback⟩, -⟩ := records_invert
  have htext : accentedHook.data.IsText := ⟨"cé", by decide +kernel⟩
  have htimer : HoldsInt32 paddedService.validationTimer :=
    holdsInt32_iff.mpr (by decide +kernel)
  have hcanonical : canonicalDecimal paddedService.validationTimer = "7" := by decide +kernel
  obtain ⟨h, hh⟩ := (hhook accentedHook).1.mpr ⟨htext, by decide⟩
  obtain ⟨w, hw⟩ := (hservice paddedService).1.mpr htimer
  refine ⟨⟨h, hh, (hhook accentedHook).2.2 h hh⟩, ⟨w, hw, ?_⟩, hback _ (by decide)⟩
  rw [(hservice paddedService).2 w hw, hcanonical]

end EmuControl
