import EmuControl.Proofs.OptionRecord
import EmuControl.Proofs.SessionSnapshot
import EmuControl.Proofs.SingleCall

/-!
# What a schema extracts

Extraction goes through a flat map name by name. What becomes of one name is said by `Means` and
`IsBad`: the option has a value, or the schema asks for an integer and the text holds none, or the
schema passes the option over. So the outcome for a whole map can be read off its options, and of
several bad ones the error is about the first in the order of bytes.

The schemas of radio models and of sessions reserve nothing, and the options of these domains go
through them unchanged.
-/
namespace EmuControl

open EmuControl.Number EmuControl.Text Wire

/-- The text is an integer of 64 bits between blanks. -/
def HoldsInt64 (text : String) : Prop :=
  ∃ n : Int64, IsDecimal (trim text).toList n.toInt

theorem not_holdsInt64_iff {text : String} :
    ¬ HoldsInt64 text ↔ readInt64? (trim text) = none := by
  rw [HoldsInt64, not_exists, Option.eq_none_iff_forall_ne_some]
  exact forall_congr' fun n => not_congr readInt64?_eq_some_iff.symm

namespace OptionSchema

/-- The schema keeps the value of an option. Only the first key of a name counts. -/
inductive Means (s : OptionSchema) (name raw : String) : OptionValue → Prop
  | integer {k : OptionKey} {n : Int64} : s.key? name = some k → k.kind = .integer →
      IsDecimal (trim raw).toList n.toInt → Means s name raw (.integer n)
  | text {k : OptionKey} : s.key? name = some k → k.kind = .text → Means s name raw (.text raw)
  | unreserved : s.key? name = none → s.isOpen = true → Means s name raw (.text raw)

/-- The schema asks for an integer and the text of the option holds none. -/
def IsBad (s : OptionSchema) (name raw : String) : Prop :=
  (s.key? name).map OptionKey.kind = some .integer ∧ ¬ HoldsInt64 raw

variable {s : OptionSchema}

theorem read_eq_some_iff {name raw : String} {v : OptionValue} :
    s.read name raw = .ok (some v) ↔ s.Means name raw v := by
  constructor
  · intro h
    unfold read at h
    split at h
    · rename_i hk
      split at h
      · rename_i hn
        cases h
        exact .integer hk rfl (readInt64?_eq_some_iff.mp hn)
      · cases h
    · rename_i hk
      cases h
      exact .text hk rfl
    · rename_i hk
      split at h
      · rename_i hopen
        cases h
        exact .unreserved hk hopen
      · cases h
  · intro h
    unfold read
    cases h with
    | @integer k n hk hkind hn =>
      obtain ⟨_, kind⟩ := k
      obtain rfl : kind = .integer := hkind
      rw [hk]
      simp only [readInt64?_eq_some_iff.mpr hn]
    | @text k hk hkind =>
      obtain ⟨_, kind⟩ := k
      obtain rfl : kind = .text := hkind
      rw [hk]
    | unreserved hk hopen =>
      rw [hk]
      simp only [hopen, if_true]

theorem read_eq_error_iff {name raw : String} {e : MappingError} :
    s.read name raw = .error e ↔
      s.IsBad name raw ∧ e = .invalidNumber (s.domain ++ "." ++ name) raw := by
  unfold read IsBad
  cases s.key? name with
  | none => simp
  | some k =>
    obtain ⟨_, kind⟩ := k
    rw [not_holdsInt64_iff]
    cases kind with
    | text => simp
    | integer => cases readInt64? (trim raw) <;> simp [eq_comm]

theorem kept?_eq_some_iff {name raw : String} {v : OptionValue} :
    s.kept? name raw = some v ↔ s.Means name raw v := by
  rw [← read_eq_some_iff, kept?]
  cases s.read name raw <;> simp

theorem take_eq_error_iff {values : OptionValues} {option : String × String} {e : MappingError} :
    s.take values option = .error e ↔
      s.IsBad option.1 option.2 ∧
        e = .invalidNumber (s.domain ++ "." ++ option.1) option.2 := by
  rw [← read_eq_error_iff, take, Mapped.bind_eq_error_iff]
  constructor
  · intro h
    rcases h with h | ⟨v, -, h⟩
    · exact h
    · cases v <;> cases h
  · exact .inl

/-- Options are taken in up to the first bad one. -/
theorem foldlM_take_eq_error_iff {options : List (String × String)} {values : OptionValues}
    {e : MappingError} :
    options.foldlM s.take values = .error e ↔
      ∃ option, Foremost (fun o => ¬ s.IsBad o.1 o.2) options option ∧
        s.IsBad option.1 option.2 ∧
        e = .invalidNumber (s.domain ++ "." ++ option.1) option.2 := by
  induction options generalizing values with
  | nil => simp [foremost_nil, pure, Except.pure]
  | cons option options ih =>
    simp only [List.foldlM_cons, Mapped.bind_eq_error_iff, take_eq_error_iff, foremost_cons,
      or_and_right, exists_or, exists_eq_left, and_assoc, exists_and_left]
    apply or_congr_right
    constructor
    · intro h
      obtain ⟨next, hnext, h⟩ := h
      refine ⟨fun hbad => ?_, ih.mp h⟩
      rw [take_eq_error_iff.mpr ⟨hbad, rfl⟩] at hnext
      cases hnext
    · intro h
      obtain ⟨hgood, h⟩ := h
      cases hnext : s.take values option with
      | error e' => exact absurd (take_eq_error_iff.mp hnext).1 hgood
      | ok next => exact ⟨next, rfl, ih.mpr h⟩

theorem exists_foremost {options : List (String × String)} {option : String × String}
    (h : option ∈ options) (hbad : s.IsBad option.1 option.2) :
    ∃ first, Foremost (fun o => ¬ s.IsBad o.1 o.2) options first ∧ s.IsBad first.1 first.2 := by
  induction options with
  | nil => cases h
  | cons head options ih =>
    by_cases hhead : s.IsBad head.1 head.2
    · exact ⟨head, foremost_cons.mpr (.inl rfl), hhead⟩
    · have hmem : option ∈ options := by
        rcases List.mem_cons.mp h with rfl | h
        · exact absurd hbad hhead
        · exact h
      obtain ⟨first, hfirst, hbad⟩ := ih hmem
      exact ⟨first, foremost_cons.mpr (.inr ⟨hhead, hfirst⟩), hbad⟩

theorem exists_extract_iff {m : OptionMap} :
    (∃ values, s.extract m = .ok values) ↔
      ∀ name raw, m.get? name = some raw → ¬ s.IsBad name raw := by
  constructor
  · intro h name raw hraw hbad
    obtain ⟨values, hvalues⟩ := h
    obtain ⟨first, hfirst, hbad⟩ := exists_foremost (SortedMap.get?_eq_some_iff.mp hraw) hbad
    have herror : s.extract m = .error _ :=
      foldlM_take_eq_error_iff.mpr ⟨first, hfirst, hbad, rfl⟩
    cases hvalues.symm.trans herror
  · intro h
    cases hextract : s.extract m with
    | ok values => exact ⟨values, rfl⟩
    | error e =>
      obtain ⟨first, ⟨before, rest, hentries, -⟩, hbad, -⟩ := foldlM_take_eq_error_iff.mp hextract
      have hmem : first ∈ m.entries := hentries ▸ List.mem_append_cons_self
      exact absurd hbad (h _ _ (SortedMap.get?_eq_some_iff.mpr hmem))

/-- In a map the first bad option is the one whose name comes first in the order of bytes. -/
theorem foremost_iff_least {m : OptionMap} {option : String × String} :
    Foremost (fun o => ¬ s.IsBad o.1 o.2) m.entries option ↔
      option ∈ m.entries ∧ ∀ other ∈ m.entries, s.IsBad other.1 other.2 → other.1 ≠ option.1 →
        Bytes.ofText option.1 < Bytes.ofText other.1 := by
  rw [SortedMap.foremost_entries_iff]
  refine and_congr_right fun _ => forall₂_congr fun other _ => ?_
  constructor
  · intro hgood hother hne
    cases hcompare : compare other.1 option.1 with
    | lt => exact absurd hother (hgood hcompare)
    | eq => exact absurd (Std.LawfulEqCmp.eq_of_compare hcompare) hne
    | gt => exact Bytes.ofText_lt_of_compare (Std.OrientedCmp.lt_of_gt hcompare)
  · intro hleast hlt hother
    have hne : other.1 ≠ option.1 := by
      intro heq
      rw [heq] at hlt
      simp at hlt
    exact List.lt_asymm (hleast hother hne) (Bytes.ofText_lt_of_compare hlt)

theorem extract_eq_error_iff {m : OptionMap} {e : MappingError} :
    s.extract m = .error e ↔ ∃ name raw, m.get? name = some raw ∧ s.IsBad name raw ∧
      e = .invalidNumber (s.domain ++ "." ++ name) raw ∧
      ∀ name' raw', m.get? name' = some raw' → s.IsBad name' raw' → name' ≠ name →
        Bytes.ofText name < Bytes.ofText name' := by
  rw [extract, foldlM_take_eq_error_iff]
  simp only [SortedMap.get?_eq_some_iff]
  constructor
  · intro h
    obtain ⟨option, hfirst, hbad, rfl⟩ := h
    obtain ⟨hmem, hleast⟩ := foremost_iff_least.mp hfirst
    exact ⟨_, _, hmem, hbad, rfl, fun name raw => hleast (name, raw)⟩
  · intro h
    obtain ⟨name, raw, hmem, hbad, rfl, hleast⟩ := h
    refine ⟨(name, raw), foremost_iff_least.mpr ⟨hmem, ?_⟩, hbad, rfl⟩
    exact fun other => hleast other.1 other.2

theorem extract_get?_eq_some_iff {m : OptionMap} {values : OptionValues}
    (h : s.extract m = .ok values) {name : String} {v : OptionValue} :
    values.get? name = some v ↔ ∃ raw, m.get? name = some raw ∧ s.Means name raw v := by
  rw [extract_get? h, Option.bind_eq_some_iff]
  simp only [kept?_eq_some_iff]

end OptionSchema

namespace Client

/-- The options of a session are asked for once, and its map is that of the groups that come. -/
theorem getSessionOptionMap_yields {ctx : SessionContext} {t : List Turn}
    {r : Except ConnectError OptionMap} (h : (getSessionOptionMap ctx).run.Yields t r) :
    (∃ e, t = [⟨⟨.getSessionOptions, { sessionId := ctx.id }⟩, .error e⟩] ∧
      r = .error (.ofApi e)) ∨
    ∃ response, t = [⟨⟨.getSessionOptions, { sessionId := ctx.id }⟩, .ok response⟩] ∧
      r = .ok (flattenGroups (response.groups.map ConfigGroup.ofWire)) := by
  rw [getSessionOptionMap, getSessionOptions, bind_assoc] at h
  rcases request_bind_yields.mp h with ⟨e, rfl, rfl⟩ | ⟨response, u, hu, rfl⟩
  · exact .inl ⟨e, rfl, rfl⟩
  rw [pure_bind, OptionSchema.session_isFree.extract] at hu
  rcases mapped_bind_yields hu with ⟨_, hvalues, -⟩ | ⟨values, hvalues, hu⟩
  · cases hvalues
  obtain rfl := Except.ok.inj hvalues
  obtain ⟨rfl, rfl⟩ := Program.yields_pure.mp hu
  refine .inr ⟨response, rfl, ?_⟩
  rw [OptionSchema.session_isFree.render_text]

end Client

/-- A schema extracts from a flat map exactly when no option of the map is bad, and then the values
are those that its options have under the schema. Otherwise the error names the first bad option in
the order of bytes, with its text as it stands. The schemas that reserve nothing encode every list
of options as the map that it is, and the options of a session are the map of the groups that the
daemon sends. -/
theorem extraction_exact :
    (∀ (s : OptionSchema) (m : OptionMap),
      ((∃ values, s.extract m = .ok values) ↔
        ∀ name raw, m.get? name = some raw → ¬ s.IsBad name raw) ∧
      (∀ values, s.extract m = .ok values → ∀ name v,
        (values.get? name = some v ↔ ∃ raw, m.get? name = some raw ∧ s.Means name raw v)) ∧
      ∀ e, s.extract m = .error e ↔ ∃ name raw, m.get? name = some raw ∧ s.IsBad name raw ∧
        e = .invalidNumber (s.domain ++ "." ++ name) raw ∧
        ∀ name' raw', m.get? name' = some raw' → s.IsBad name' raw' → name' ≠ name →
          Bytes.ofText name < Bytes.ofText name') ∧
    (∀ options, ∀ s ∈ [OptionSchema.emane, .emaneModel, .session],
      s.encodeOptions options = .ok (flattenOptions options)) ∧
    ∀ {σ : Type} (world : World σ) (s : σ) (ctx : SessionContext),
      let program := (Client.getSessionOptionMap ctx).run
      (∃ e, program.trace world s =
          [⟨⟨.getSessionOptions, { sessionId := ctx.id }⟩, .error e⟩] ∧
        (program.run world s).1 = .error (.ofApi e)) ∨
      ∃ response, program.trace world s =
          [⟨⟨.getSessionOptions, { sessionId := ctx.id }⟩, .ok response⟩] ∧
        (program.run world s).1 =
          .ok (flattenGroups (response.groups.map ConfigGroup.ofWire)) := by
  refine ⟨fun s m => ⟨OptionSchema.exists_extract_iff, fun values h name v =>
    OptionSchema.extract_get?_eq_some_iff h, fun e => OptionSchema.extract_eq_error_iff⟩, ?_, ?_⟩
  · intro options
    simp only [List.forall_mem_cons]
    exact ⟨OptionSchema.emane_isFree.encodeOptions options,
      OptionSchema.emaneModel_isFree.encodeOptions options,
      OptionSchema.session_isFree.encodeOptions options, List.forall_mem_nil _⟩
  · intro σ world s ctx
    exact Client.getSessionOptionMap_yields (Program.yields_run world _ s)

/-- A closed schema that reserves one name twice. -/
def meterSchema : OptionSchema where
  domain := "meter"
  keys := [⟨"rate", .integer⟩, ⟨"rate", .text⟩, ⟨"unit", .text⟩, ⟨"step", .integer⟩]
  isOpen := false

theorem meterSchema_extraction :
    let m : OptionMap := .ofList [("unit", " s "), ("rate", "\t-07 "), ("other", "x")]
    let values : OptionValues := .ofList [("rate", .integer (-7)), ("unit", .text " s ")]
    let bad : OptionMap := .ofList [("step", " 1.5"), ("rate", ""), ("unit", "")]
    (meterSchema.extract m = .ok values ∧ meterSchema.Means "rate" "\t-07 " (.integer (-7)) ∧
      ∀ v, ¬ meterSchema.Means "other" "x" v) ∧
    meterSchema.IsBad "rate" "" ∧ meterSchema.IsBad "step" " 1.5" ∧
    meterSchema.extract bad = .error (.invalidNumber "meter.rate" "") := by
  intro m values bad
  obtain ⟨hextract, -⟩ := extraction_exact
  have hvalues : meterSchema.extract m = .ok values := by decide +kernel
  have hmeans := (hextract meterSchema m).2.1 values hvalues
  have hrate : meterSchema.IsBad "rate" "" :=
    ⟨by decide +kernel, not_holdsInt64_iff.mpr (by decide +kernel)⟩
  have hstep : meterSchema.IsBad "step" " 1.5" :=
    ⟨by decide +kernel, not_holdsInt64_iff.mpr (by decide +kernel)⟩
  refine ⟨⟨hvalues, ?_, fun v hv => ?_⟩, hrate, hstep, ?_⟩
  · obtain ⟨raw, hraw, h⟩ := (hmeans "rate" (.integer (-7))).mp (by decide +kernel)
    obtain rfl : raw = "\t-07 " := Option.some.inj (hraw.symm.trans (by decide +kernel))
    exact h
  · have hother := (hmeans "other" v).mpr ⟨"x", by decide +kernel, hv⟩
    have hnone : values.get? "other" = none := by decide +kernel
    cases hother.symm.trans hnone
  · refine ((hextract meterSchema bad).2.2 _).mpr ⟨"rate", "", by decide +kernel, hrate, rfl, ?_⟩
    intro name raw hraw hbad hne
    have hmem := SortedMap.get?_eq_some_iff.mp hraw
    have hentries : bad.entries = [("rate", ""), ("step", " 1.5"), ("unit", "")] := by
      decide +kernel
    simp only [hentries, List.mem_cons, Prod.mk.injEq, List.not_mem_nil, or_false] at hmem
    rcases hmem with ⟨rfl, rfl⟩ | ⟨rfl, rfl⟩ | ⟨rfl, rfl⟩
    · exact absurd rfl hne
    · decide +kernel
    · decide +kernel

end EmuControl
