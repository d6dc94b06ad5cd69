import EmuControl.Proofs.SortedOrder
import EmuControl.Proofs.WireRecord
import EmuControl.Wire.Schema

/-!
# Messages from their encoding

A schema is sound when the tags of its fields differ from each other and fit a key, and the schemas
of its sub-messages are sound. What a message of a sound schema is encoded as is decoded to the same
message.

The argument goes field by field. The records of a field are the only ones with its tag, so taking
them in changes this field alone, and the records of the other fields leave it as it is. A record
that was left out because it would hold a default is made up for by the default message that
decoding starts from.
-/
namespace EmuControl.Wire

namespace Scalar

theorem eq_default_of_isDefault {k : Scalar} {v : k.Value} (h : k.isDefault v = true) :
    v = k.default := by
  cases k with
  | int32 => exact eq_of_beq h
  | bool => exact eq_of_beq h
  | float => exact eq_of_beq h
  | text => exact eq_of_beq h
  | bytes => exact List.isEmpty_iff.mp h

theorem int32_extend (n : Int32) : n.toInt64.toUInt64.toUInt32.toInt32 = n := by
  apply Int32.toBitVec.inj
  ext i hi
  simp [BitVec.getLsbD_signExtend, hi]
  omega

theorem ofPayload?_payload (k : Scalar) (v : k.Value) : k.ofPayload? (k.payload v) = some v := by
  cases k with
  | int32 => exact congrArg some (int32_extend v)
  | bool => cases v <;> rfl
  | float => rfl
  | text => exact Bytes.toText?_ofText v
  | bytes => rfl

theorem payload_ne_group (k : Scalar) (v : k.Value) : k.payload v ≠ .group := by
  cases k <;> exact Payload.noConfusion

end Scalar

namespace Schema

/-- A tag for one more field. -/
def IsFresh (tag : Nat) (rest : Schema) : Prop :=
  0 < tag ∧ tag < 2 ^ 29 ∧ tag ∉ rest.tags

instance (tag : Nat) (rest : Schema) : Decidable (IsFresh tag rest) :=
  inferInstanceAs (Decidable (_ ∧ _ ∧ _))

/-- All tags fit a key, and no two fields of a message have the same. -/
def Sound : Schema → Prop
  | done => True
  | scalar _ tag _ _ rest => IsFresh tag rest ∧ rest.Sound
  | message _ tag _ body rest => IsFresh tag rest ∧ body.Sound ∧ rest.Sound
  | textMap _ tag rest => IsFresh tag rest ∧ rest.Sound
  | messageMap _ tag body rest => IsFresh tag rest ∧ body.Sound ∧ rest.Sound

instance decidableSound : (s : Schema) → Decidable s.Sound
  | done => inferInstanceAs (Decidable True)
  | scalar _ tag _ _ rest =>
    have := decidableSound rest
    inferInstanceAs (Decidable (IsFresh tag rest ∧ rest.Sound))
  | message _ tag _ body rest =>
    have := decidableSound body
    have := decidableSound rest
    inferInstanceAs (Decidable (IsFresh tag rest ∧ body.Sound ∧ rest.Sound))
  | textMap _ tag rest =>
    have := decidableSound rest
    inferInstanceAs (Decidable (IsFresh tag rest ∧ rest.Sound))
  | messageMap _ tag body rest =>
    have := decidableSound body
    have := decidableSound rest
    inferInstanceAs (Decidable (IsFresh tag rest ∧ body.Sound ∧ rest.Sound))

/-! The records of a message -/

theorem mem_scalarRecords {tag : Nat} {kind : Scalar} {presence : Presence}
    {v : presence.Of kind.Value} {r : Record} (h : r ∈ scalarRecords tag kind presence v) :
    r.tag = tag ∧ r.payload ≠ .group := by
  have hfield : ∀ w : kind.Value, r = ⟨tag, kind.payload w⟩ → r.tag = tag ∧ r.payload ≠ .group := by
    rintro w rfl
    exact ⟨rfl, kind.payload_ne_group w⟩
  cases presence with
  | always =>
    rw [scalarRecords] at h
    split at h
    · cases h
    · exact hfield v (List.mem_singleton.mp h)
  | optional =>
    cases v with
    | none => cases h
    | some w => exact hfield w (List.mem_singleton.mp h)
  | repeated =>
    obtain ⟨w, -, rfl⟩ := List.mem_map.mp h
    exact hfield w rfl

theorem mem_map_delimited {α : Type} {tag : Nat} {body : α → Bytes} {xs : List α} {r : Record}
    (h : r ∈ xs.map fun x => ⟨tag, .delimited (body x)⟩) : r.tag = tag ∧ r.payload ≠ .group := by
  obtain ⟨x, -, rfl⟩ := List.mem_map.mp h
  exact ⟨rfl, Payload.noConfusion⟩

theorem mem_records_cons {tag : Nat} {tags : List Nat} {own others : List Record} {r : Record}
    (hown : r ∈ own → r.tag = tag ∧ r.payload ≠ .group)
    (hothers : r ∈ others → r.tag ∈ tags ∧ r.payload ≠ .group) (h : r ∈ own ++ others) :
    r.tag ∈ tag :: tags ∧ r.payload ≠ .group := by
  rcases List.mem_append.mp h with h | h
  · obtain ⟨rfl, hr⟩ := hown h
    exact ⟨List.mem_cons_self, hr⟩
  · exact (hothers h).imp (List.mem_cons_of_mem _) id

/-- Every record has the tag of a field. -/
theorem mem_records {s : Schema} {v : s.Value} {r : Record} (h : r ∈ s.records v) :
    r.tag ∈ s.tags ∧ r.payload ≠ .group := by
  induction s with
  | done => cases h
  | scalar name tag presence kind rest ih => exact mem_records_cons mem_scalarRecords ih h
  | message name tag multiplicity body rest _ ih =>
    cases multiplicity with
    | optional => exact mem_records_cons mem_map_delimited ih h
    | repeated => exact mem_records_cons mem_map_delimited ih h
  | textMap name tag rest ih => exact mem_records_cons mem_map_delimited ih h
  | messageMap name tag body rest _ ih => exact mem_records_cons mem_map_delimited ih h

theorem IsFresh.bounds {t : Nat} {rest : Schema} (hfresh : IsFresh t rest) {tag : Nat}
    (hrest : tag ∈ rest.tags → 0 < tag ∧ tag < 2 ^ 29) (h : tag ∈ t :: rest.tags) :
    0 < tag ∧ tag < 2 ^ 29 := by
  rcases List.mem_cons.mp h with rfl | h
  · exact ⟨hfresh.1, hfresh.2.1⟩
  · exact hrest h

theorem Sound.tag_bounds {s : Schema} (hs : s.Sound) {tag : Nat} (h : tag ∈ s.tags) :
    0 < tag ∧ tag < 2 ^ 29 := by
  induction s with
  | done => cases h
  | scalar name t presence kind rest ih => exact hs.1.bounds (ih hs.2) h
  | message name t multiplicity body rest _ ih => exact hs.1.bounds (ih hs.2.2) h
  | textMap name t rest ih => exact hs.1.bounds (ih hs.2) h
  | messageMap name t body rest _ ih => exact hs.1.bounds (ih hs.2.2) h

theorem Sound.isField {s : Schema} (hs : s.Sound) {v : s.Value} {r : Record}
    (h : r ∈ s.records v) : r.IsField := by
  obtain ⟨htag, hpayload⟩ := mem_records h
  obtain ⟨hpos, hlt⟩ := hs.tag_bounds htag
  exact ⟨hpos, hlt, hpayload⟩

theorem IsFresh.tag_ne {tag : Nat} {rest : Schema} (hfresh : IsFresh tag rest) {v : rest.Value}
    {r : Record} (h : r ∈ rest.records v) : r.tag ≠ tag :=
  fun heq => hfresh.2.2 (heq ▸ (mem_records h).1)

/-! Taking records in -/

section Fold

variable {α β σ : Type}

/-- The records of one field come first and settle it; the others pass it by. -/
theorem foldlM_field {step : α × β → Record → Option (α × β)} {absorb : β → Record → Option β}
    {own others : List Record} {init : α × β} {v : α} {vs₀ vs : β}
    (hown : own.foldlM step init = some (v, vs₀))
    (hothers : ∀ r ∈ others, ∀ vs, step (v, vs) r = (absorb vs r).map fun vs => (v, vs))
    (hrest : others.foldlM absorb vs₀ = some vs) :
    (own ++ others).foldlM step init = some (v, vs) := by
  rw [List.foldlM_append, hown, Option.bind_eq_bind, Option.bind_some]
  clear hown
  induction others generalizing vs₀ with
  | nil =>
    cases hrest
    rfl
  | cons r others ih =>
    obtain ⟨hr, hothers⟩ := List.forall_mem_cons.mp hothers
    rw [List.foldlM_cons, Option.bind_eq_bind, Option.bind_eq_some_iff] at hrest
    obtain ⟨vs₁, hvs₁, hrest⟩ := hrest
    rw [List.foldlM_cons, hr, hvs₁]
    exact ih hothers hrest

/-- Each record of a field adds what it holds. -/
theorem foldlM_own {step : σ × β → Record → Option (σ × β)} {toRecord : α → Record}
    {put : σ → α → σ} {vs : β} {xs : List α}
    (h : ∀ x ∈ xs, ∀ acc, step (acc, vs) (toRecord x) = some (put acc x, vs)) (acc : σ) :
    (xs.map toRecord).foldlM step (acc, vs) = some (xs.foldl put acc, vs) := by
  induction xs generalizing acc with
  | nil => rfl
  | cons x xs ih =>
    obtain ⟨hx, hxs⟩ := List.forall_mem_cons.mp h
    rw [List.map_cons, List.foldlM_cons, hx]
    exact ih hxs (put acc x)

theorem foldlM_grow {step : List α × β → Record → Option (List α × β)} {toRecord : α → Record}
    {vs : β} {xs : List α}
    (h : ∀ x ∈ xs, ∀ acc, step (acc, vs) (toRecord x) = some (acc ++ [x], vs)) :
    (xs.map toRecord).foldlM step ([], vs) = some (xs, vs) := by
  rw [foldlM_own h, List.foldl_append_eq_append, List.nil_append, ← List.flatMap_def,
    List.flatMap_singleton']

theorem foldlM_insert {κ ν : Type} [Ord κ] [Std.TransOrd κ] [Std.LawfulEqOrd κ]
    {step : SortedMap κ ν × β → Record → Option (SortedMap κ ν × β)} {toRecord : κ × ν → Record}
    {vs : β} {m : SortedMap κ ν}
    (h : ∀ e ∈ m.entries, ∀ acc, step (acc, vs) (toRecord e) = some (acc.insert e.1 e.2, vs)) :
    (m.entries.map toRecord).foldlM step (.empty, vs) = some (m, vs) := by
  rw [foldlM_own h]
  exact congrArg (fun m => some (m, vs)) (SortedMap.ofList_entries m)

/-- A record that is left out would have changed nothing. -/
theorem foldlM_always {step : σ → Record → Option σ} {tag : Nat} {kind : Scalar} {v : kind.Value}
    {a b : σ} (hdefault : v = kind.default → a = b)
    (hstep : step a ⟨tag, kind.payload v⟩ = some b) :
    (scalarRecords tag kind .always v).foldlM step a = some b := by
  rw [scalarRecords]
  split
  · rename_i h
    rw [hdefault (Scalar.eq_default_of_isDefault h)]
    rfl
  · rw [List.foldlM_cons, hstep]
    rfl

end Fold

/-- The records in the body of a record. -/
theorem nested?_encodeAll {rs : List Record} (hrs : ∀ r ∈ rs, r.IsField)
    (hlen : (Record.encodeAll rs).length < 2 ^ 64) (budget : Nat) :
    nested? budget (.delimited (Record.encodeAll rs)) = some rs :=
  Record.parse_encodeAll hrs hlen budget

theorem foldlM_scalar (name : String) (tag : Nat) (presence : Presence) (kind : Scalar)
    (rest : Schema) (budget : Nat) (v : presence.Of kind.Value) :
    (scalarRecords tag kind presence v).foldlM ((scalar name tag presence kind rest).absorb budget)
      (scalar name tag presence kind rest).default = some (v, rest.default) := by
  have hstep : ∀ acc w vs, (scalar name tag presence kind rest).absorb budget (acc, vs)
      ⟨tag, kind.payload w⟩ =
        (absorbScalar kind presence acc (kind.payload w)).map fun v => (v, vs) := by
    intro acc w vs
    rw [absorb, if_pos rfl]
  cases presence with
  | always =>
    apply foldlM_always
    · rintro rfl
      rfl
    · rw [default, hstep, absorbScalar, Scalar.ofPayload?_payload]
      rfl
  | optional =>
    cases v with
    | none => rfl
    | some w =>
      rw [scalarRecords, default, List.foldlM_cons, hstep, absorbScalar, Scalar.ofPayload?_payload]
      rfl
  | repeated =>
    apply foldlM_grow
    intro w _ acc
    rw [hstep, absorbScalar, Scalar.ofPayload?_payload]
    rfl

/-- The message comes out of the body of a record. -/
def Restores (body : Schema) (m : body.Value) : Prop :=
  ∀ budget, ∃ inner, nested? budget (.delimited (Record.encodeAll (body.records m))) = some inner ∧
    inner.foldlM (body.absorb budget) body.default = some m

theorem Sound.restores {body : Schema} (hbody : body.Sound) {m : body.Value}
    (hlen : (Record.encodeAll (body.records m)).length < 2 ^ 64)
    (hfold : ∀ budget, (body.records m).foldlM (body.absorb budget) body.default = some m) :
    body.Restores m :=
  fun budget => ⟨_, nested?_encodeAll (fun _ h => hbody.isField h) hlen budget, hfold budget⟩

theorem foldlM_optional {name : String} {tag : Nat} {body rest : Schema} {budget : Nat}
    {v : Option body.Value} (h : ∀ m ∈ v.toList, body.Restores m) :
    (v.toList.map fun m => ⟨tag, .delimited (Record.encodeAll (body.records m))⟩).foldlM
      ((message name tag .optional body rest).absorb budget)
      (message name tag .optional body rest).default = some (v, rest.default) := by
  cases v with
  | none => rfl
  | some m =>
    obtain ⟨inner, hinner, hm⟩ := h m (List.mem_singleton_self m) (budget - 1)
    simp [default, absorb, hinner, hm]

theorem foldlM_repeated {name : String} {tag : Nat} {body rest : Schema} {budget : Nat}
    {v : List body.Value} (h : ∀ m ∈ v, body.Restores m) :
    (v.map fun m => ⟨tag, .delimited (Record.encodeAll (body.records m))⟩).foldlM
      ((message name tag .repeated body rest).absorb budget)
      (message name tag .repeated body rest).default = some (v, rest.default) := by
  apply foldlM_grow
  intro m hmem acc
  obtain ⟨inner, hinner, hm⟩ := h m hmem (budget - 1)
  simp [absorb, hinner, hm]

/-! Entries of maps -/

/-- The records of an entry from text to text. -/
def textEntry (e : String × String) : List Record :=
  scalarRecords 1 .text .always e.1 ++ scalarRecords 2 .text .always e.2

theorem isField_of_mem_scalarRecords {tag : Nat} (hpos : 0 < tag) (hlt : tag < 2 ^ 29)
    {kind : Scalar} {presence : Presence} {v : presence.Of kind.Value} {r : Record}
    (h : r ∈ scalarRecords tag kind presence v) : r.IsField := by
  obtain ⟨rfl, hr⟩ := mem_scalarRecords h
  exact ⟨hpos, hlt, hr⟩

theorem isField_of_mem_textEntry {e : String × String} {r : Record} (h : r ∈ textEntry e) :
    r.IsField := by
  rcases List.mem_append.mp h with h | h
  · exact isField_of_mem_scalarRecords (by decide) (by decide) h
  · exact isField_of_mem_scalarRecords (by decide) (by decide) h

theorem foldlM_textEntry (e : String × String) :
    (textEntry e).foldlM absorbTextEntry ("", "") = some e := by
  obtain ⟨key, value⟩ := e
  have hkey : (scalarRecords 1 .text .always key).foldlM absorbTextEntry ("", "") =
      some (key, "") := by
    apply foldlM_always
    · rintro rfl
      rfl
    · simp [absorbTextEntry, Scalar.ofPayload?_payload]
  have hvalue : (scalarRecords 2 .text .always value).foldlM absorbTextEntry (key, "") =
      some (key, value) := by
    apply foldlM_always
    · rintro rfl
      rfl
    · simp [absorbTextEntry, Scalar.ofPayload?_payload]
  rw [textEntry, List.foldlM_append, hkey]
  exact hvalue

theorem foldlM_textMap {name : String} {tag : Nat} {rest : Schema} {budget : Nat}
    {v : SortedMap String String}
    (hlen : ∀ e ∈ v.entries, (Record.encodeAll (textEntry e)).length < 2 ^ 64) :
    (v.entries.map fun e => ⟨tag, .delimited (Record.encodeAll (textEntry e))⟩).foldlM
      ((textMap name tag rest).absorb budget) (textMap name tag rest).default =
        some (v, rest.default) := by
  apply foldlM_insert
  intro e he acc
  have hinner := nested?_encodeAll (fun _ => isField_of_mem_textEntry) (hlen e he) (budget - 1)
  rw [absorb, if_pos rfl, hinner, Option.bind_eq_bind, Option.bind_some, foldlM_textEntry]
  rfl

/-- The records of an entry from an integer to a message. -/
def messageEntry (body : Schema) (e : Int32 × body.Value) : List Record :=
  scalarRecords 1 .int32 .always e.1 ++
    if (Record.encodeAll (body.records e.2)).isEmpty then []
    else [⟨2, .delimited (Record.encodeAll (body.records e.2))⟩]

theorem isField_of_mem_messageEntry {body : Schema} {e : Int32 × body.Value} {r : Record}
    (h : r ∈ messageEntry body e) : r.IsField := by
  rcases List.mem_append.mp h with h | h
  · exact isField_of_mem_scalarRecords (by decide) (by decide) h
  · split at h
    · cases h
    · rw [List.mem_singleton.mp h]
      exact ⟨Nat.zero_lt_two, (by decide : 2 < 2 ^ 29), Payload.noConfusion⟩

/-- Takes a record of an entry from an integer to a message in. -/
def absorbMessageEntry (body : Schema) (budget : Nat) (entry : Int32 × body.Value) (r : Record) :
    Option (Int32 × body.Value) :=
  if r.tag = 1 then (Scalar.int32.ofPayload? r.payload).map fun k => (k, entry.2)
  else if r.tag = 2 then do
    let inner ← nested? budget r.payload
    let m ← inner.foldlM (fun m r => body.absorb budget m r) entry.2
    some (entry.1, m)
  else some entry

theorem foldlM_messageEntry {body : Schema} {e : Int32 × body.Value} (h : body.Restores e.2)
    (budget : Nat) :
    (messageEntry body e).foldlM (absorbMessageEntry body budget) (0, body.default) = some e := by
  obtain ⟨key, value⟩ := e
  have hkey : (scalarRecords 1 .int32 .always key).foldlM (absorbMessageEntry body budget)
      (0, body.default) = some (key, body.default) := by
    apply foldlM_always
    · rintro rfl
      rfl
    · simp [absorbMessageEntry, Scalar.ofPayload?_payload]
  obtain ⟨inner, hinner, hvalue⟩ := h budget
  rw [messageEntry, List.foldlM_append, hkey, Option.bind_eq_bind, Option.bind_some]
  split
  · rename_i hempty
    -- Without content there is no record to take in, and the default is the message itself.
    rw [List.isEmpty_iff.mp hempty] at hinner
    cases hinner
    cases hvalue
    rfl
  · simp [absorbMessageEntry, hinner, hvalue]

theorem length_content_lt {body : Schema} {e : Int32 × body.Value} {n : Nat} (hn : 0 < n)
    (h : (Record.encodeAll (messageEntry body e)).length < n) :
    (Record.encodeAll (body.records e.2)).length < n := by
  by_cases hempty : (Record.encodeAll (body.records e.2)).isEmpty
  · rwa [List.isEmpty_iff.mp hempty]
  · have hmem : ⟨2, .delimited (Record.encodeAll (body.records e.2))⟩ ∈ messageEntry body e := by
      simp [messageEntry, hempty]
    exact (Record.length_le_of_delimited_mem hmem).trans_lt h

theorem foldlM_messageMap {name : String} {tag : Nat} {body rest : Schema} {budget : Nat}
    {v : SortedMap Int32 body.Value}
    (hlen : ∀ e ∈ v.entries, (Record.encodeAll (messageEntry body e)).length < 2 ^ 64)
    (h : ∀ e ∈ v.entries, body.Restores e.2) :
    (v.entries.map fun e => ⟨tag, .delimited (Record.encodeAll (messageEntry body e))⟩).foldlM
      ((messageMap name tag body rest).absorb budget) (messageMap name tag body rest).default =
        some (v, rest.default) := by
  apply foldlM_insert
  intro e he acc
  have hinner := nested?_encodeAll (fun _ => isField_of_mem_messageEntry) (hlen e he) (budget - 1)
  have hentry := foldlM_messageEntry (h e he) (budget - 2)
  rw [absorb, if_pos rfl, hinner, Option.bind_eq_bind, Option.bind_some]
  change (List.foldlM (absorbMessageEntry body (budget - 2)) (0, body.default) _).bind _ = _
  rw [hentry]
  rfl

/-- Decoding starts from the default message and ends with the message that was encoded. -/
theorem Sound.foldlM_records {s : Schema} (hs : s.Sound) (budget : Nat) (v : s.Value)
    (hlen : (Record.encodeAll (s.records v)).length < 2 ^ 64) :
    (s.records v).foldlM (s.absorb budget) s.default = some v := by
  induction s generalizing budget with
  | done => rfl
  | scalar name tag presence kind rest ih =>
    obtain ⟨v, vs⟩ := v
    obtain ⟨hown, hothers⟩ := Record.length_lt_of_append hlen
    refine foldlM_field (foldlM_scalar name tag presence kind rest budget v) ?_
      (ih hs.2 budget vs hothers)
    intro r hr vs
    rw [absorb, if_neg (hs.1.tag_ne hr)]
  | message name tag multiplicity body rest ihBody ih =>
    obtain ⟨v, vs⟩ := v
    have hrestores : ∀ m, (Record.encodeAll (body.records m)).length < 2 ^ 64 → body.Restores m :=
      fun m hm => hs.2.1.restores hm fun budget => ihBody hs.2.1 budget m hm
    cases multiplicity with
    | optional =>
      obtain ⟨hown, hothers⟩ := Record.length_lt_of_append hlen
      refine foldlM_field
        (foldlM_optional fun m hm => hrestores m (Record.length_body_lt hown hm)) ?_
        (ih hs.2.2 budget vs hothers)
      intro r hr vs
      rw [absorb, if_neg (hs.1.tag_ne hr)]
    | repeated =>
      obtain ⟨hown, hothers⟩ := Record.length_lt_of_append hlen
      refine foldlM_field
        (foldlM_repeated fun m hm => hrestores m (Record.length_body_lt hown hm)) ?_
        (ih hs.2.2 budget vs hothers)
      intro r hr vs
      rw [absorb, if_neg (hs.1.tag_ne hr)]
  | textMap name tag rest ih =>
    obtain ⟨v, vs⟩ := v
    obtain ⟨hown, hothers⟩ := Record.length_lt_of_append hlen
    refine foldlM_field (foldlM_textMap fun e he => Record.length_body_lt hown he) ?_
      (ih hs.2 budget vs hothers)
    intro r hr vs
    rw [absorb, if_neg (hs.1.tag_ne hr)]
  | messageMap name tag body rest ihBody ih =>
    obtain ⟨v, vs⟩ := v
    obtain ⟨hown, hothers⟩ := Record.length_lt_of_append hlen
    have hentry : ∀ e ∈ v.entries, (Record.encodeAll (messageEntry body e)).length < 2 ^ 64 :=
      fun e he => Record.length_body_lt hown he
    have hrestores : ∀ e ∈ v.entries, body.Restores e.2 := by
      intro e he
      have hcontent := length_content_lt (by decide) (hentry e he)
      exact hs.2.1.restores hcontent fun budget => ihBody hs.2.1 budget e.2 hcontent
    refine foldlM_field (foldlM_messageMap hentry hrestores) ?_ (ih hs.2.2 budget vs hothers)
    intro r hr vs
    rw [absorb, if_neg (hs.1.tag_ne hr)]

theorem Sound.decode_encode {s : Schema} (hs : s.Sound) {v : s.Value}
    (hlen : (s.encode v).length < 2 ^ 64) : s.decode (s.encode v) = some v := by
  have hparse := Record.parse_encodeAll (fun _ h => hs.isField h) hlen nestingLimit
  rw [decode, encode, hparse]
  exact hs.foldlM_records nestingLimit v hlen

end Schema

end EmuControl.Wire
