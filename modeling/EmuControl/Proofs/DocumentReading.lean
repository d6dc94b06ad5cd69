import EmuControl.Topology.Basic
import EmuControl.Proofs.SortedOrder
import Mathlib.Data.List.Perm.Basic

/-!
# Reading what was written into a document

A format need not keep the order in which the entries of a table were written. `Rearranged` relates
a document to the same one with its tables in any order, at every depth. Nor need a format keep the
numbers: `mapFloats` puts what is read in the place of each of them, and that may be no number at
all.

The records of a topology do not depend on the order of their fields, in any dialect: whatever a
record was written as, each rearrangement of it is read as the same record, with the numbers that
are read for its own. So a format is left with its text alone: it has to give back a rearrangement
of the document that it was given, and something for each number.
-/
namespace EmuControl

open EmuControl.Number FieldReader

namespace Document

mutual

/-- The document with something else in the place of each floating-point number. -/
def mapFloats (f : Binary64 → Document) : Document → Document
  | float x => f x
  | list items => list (mapItems f items)
  | table entries => table (mapEntries f entries)
  | d => d

def mapItems (f : Binary64 → Document) : List Document → List Document
  | [] => []
  | d :: ds => d.mapFloats f :: mapItems f ds

def mapEntries (f : Binary64 → Document) :
    List (Option String × Document) → List (Option String × Document)
  | [] => []
  | (k, d) :: es => (k, d.mapFloats f) :: mapEntries f es

end

variable (f : Binary64 → Document)

theorem mapFloats_list (items : List Document) :
    (list items).mapFloats f = list (items.map (mapFloats f)) := by
  rw [mapFloats]
  congr 1
  induction items with
  | nil => rfl
  | cons d items ih => rw [mapItems, ih, List.map_cons]

theorem mapFloats_table (entries : List (Option String × Document)) :
    (table entries).mapFloats f = table (entries.map fun e => (e.1, e.2.mapFloats f)) := by
  rw [mapFloats]
  congr 1
  induction entries with
  | nil => rfl
  | cons e entries ih => rw [mapEntries, ih, List.map_cons]

end Document

/-- The second document says the same as the first, the entries of its tables in any order. -/
inductive Document.Rearranged : Document → Document → Prop
  | refl (d : Document) : Rearranged d d
  | list {pairs : List (Document × Document)} :
      (∀ p ∈ pairs, Rearranged p.1 p.2) →
      Rearranged (.list (pairs.map (·.1))) (.list (pairs.map (·.2)))
  /-- Each row is a key with the two documents that stand under it. -/
  | table {rows : List (Option String × Document × Document)}
      {entries : List (Option String × Document)} :
      (∀ r ∈ rows, Rearranged r.2.1 r.2.2) →
      (rows.map fun r => (r.1, r.2.2)).Perm entries →
      Rearranged (.table (rows.map fun r => (r.1, r.2.1))) (.table entries)

namespace Document.Rearranged

theorem of_list {items : List Document} {d : Document} (h : Rearranged (.list items) d) :
    ∃ pairs : List (Document × Document), items = pairs.map (·.1) ∧ d = .list (pairs.map (·.2)) ∧
      ∀ p ∈ pairs, Rearranged p.1 p.2 := by
  cases h with
  | refl =>
    refine ⟨items.map fun i => (i, i), ?_, ?_, ?_⟩
    · rw [List.map_map]
      exact (List.map_id items).symm
    · rw [List.map_map]
      exact congrArg _ (List.map_id items).symm
    · simp only [List.forall_mem_map]
      exact fun i _ => .refl i
  | list hpairs => exact ⟨_, rfl, rfl, hpairs⟩

theorem of_table {written : List (Option String × Document)} {d : Document}
    (h : Rearranged (.table written) d) :
    ∃ (rows : List (Option String × Document × Document))
      (entries : List (Option String × Document)),
      written = rows.map (fun r => (r.1, r.2.1)) ∧ d = .table entries ∧
      (∀ r ∈ rows, Rearranged r.2.1 r.2.2) ∧ (rows.map fun r => (r.1, r.2.2)).Perm entries := by
  cases h with
  | refl =>
    refine ⟨written.map fun e => (e.1, e.2, e.2), written, ?_, rfl, ?_, ?_⟩
    · rw [List.map_map]
      exact (List.map_id written).symm
    · simp only [List.forall_mem_map]
      exact fun e _ => .refl e.2
    · rw [List.map_map]
      exact .of_eq (List.map_id written)
  | table hrows hperm => exact ⟨_, _, rfl, rfl, hrows, hperm⟩

theorem eq_null {w : Document} (h : Rearranged w .null) : w = .null := by
  cases h
  rfl

end Document.Rearranged

/-- What a field holds, `none` if it was left out, is what the slot says. -/
def Slot.Holds : Slot → Option Document → Prop
  | given d, some w => w.Rearranged d
  | keyMissing, none => True
  | _, _ => False

/-- The entries of a table with the given fields, of which some may be left out. -/
def layout (fields : List (String × Option Document)) : List (Option String × Document) :=
  fields.flatMap fun f => f.2.toList.map fun d => (some f.1, d)

section Layout

variable {α : Type} [Writable α]

@[simp] theorem layout_nil : layout [] = [] := rfl

@[simp] theorem layout_openField (name : String) (a : Option α)
    (fields : List (String × Option Document)) :
    layout ((name, a.map write) :: fields) = openField name a ++ layout fields := by
  cases a <;> rfl

@[simp] theorem layout_field (name : String) (a : α) (fields : List (String × Option Document)) :
    layout ((name, some (write a)) :: fields) = field name a ++ layout fields := rfl

end Layout

theorem isSome_of_mem_layout {fields : List (String × Option Document)}
    {e : Option String × Document} (h : e ∈ layout fields) : e.1.isSome = true := by
  obtain ⟨f, -, he⟩ := List.mem_flatMap.mp h
  obtain ⟨d, -, rfl⟩ := List.mem_map.mp he
  rfl

theorem filter_layout_eq_nil {fields : List (String × Option Document)} {name : String}
    (h : name ∉ fields.map (·.1)) : (layout fields).filter (fun e => e.1 = some name) = [] := by
  rw [List.filter_eq_nil_iff]
  intro e he
  obtain ⟨f, hf, hd⟩ := List.mem_flatMap.mp he
  obtain ⟨d, -, rfl⟩ := List.mem_map.mp hd
  have hne : f.1 ≠ name := fun heq => h (List.mem_map.mpr ⟨f, hf, heq⟩)
  simpa using hne

/-- A field stands under its name at most once. -/
theorem filter_layout {fields : List (String × Option Document)} (hnames : (fields.map (·.1)).Nodup)
    {f : String × Option Document} (hf : f ∈ fields) :
    (layout fields).filter (fun e => e.1 = some f.1) = f.2.toList.map fun d => (some f.1, d) := by
  induction fields with
  | nil => exact absurd hf List.not_mem_nil
  | cons g rest ih =>
    obtain ⟨hg, hrest⟩ := List.nodup_cons.mp hnames
    have hsplit : layout (g :: rest) = (g.2.toList.map fun d => (some g.1, d)) ++ layout rest := rfl
    rw [hsplit, List.filter_append]
    rcases List.mem_cons.mp hf with rfl | hmem
    · rw [filter_layout_eq_nil hg, List.append_nil, List.filter_eq_self]
      intro e he
      obtain ⟨d, -, rfl⟩ := List.mem_map.mp he
      simp
    · have hne : g.1 ≠ f.1 := fun heq => hg (List.mem_map.mpr ⟨f, hmem, heq.symm⟩)
      have hnone :
          (g.2.toList.map fun d => (some g.1, d)).filter (fun e => e.1 = some f.1) = [] := by
        rw [List.filter_eq_nil_iff]
        intro e he
        obtain ⟨d, -, rfl⟩ := List.mem_map.mp he
        simpa using hne
      rw [hnone, List.nil_append, ih hrest hmem]

theorem entrySlot_holds {fields : List (String × Option Document)}
    (hnames : (fields.map (·.1)).Nodup) {rows : List (Option String × Document × Document)}
    {entries : List (Option String × Document)}
    (hfields : layout fields = rows.map fun r => (r.1, r.2.1))
    (hrows : ∀ r ∈ rows, r.2.1.Rearranged r.2.2)
    (hperm : (rows.map fun r => (r.1, r.2.2)).Perm entries)
    {f : String × Option Document} (hf : f ∈ fields) :
    ∃ s, entrySlot entries f.1 = some s ∧ s.Holds f.2 := by
  -- The rows of the field are its entries on both sides.
  have hwritten := filter_layout hnames hf
  rw [hfields, List.filter_map] at hwritten
  have hfound := hperm.filter fun e => e.1 = some f.1
  rw [List.filter_map] at hfound
  simp only [Function.comp_def] at hwritten hfound
  cases hv : f.2 with
  | none =>
    rw [hv, Option.toList_none, List.map_nil, List.map_eq_nil_iff] at hwritten
    rw [hwritten, List.map_nil, List.nil_perm] at hfound
    exact ⟨.keyMissing, by rw [entrySlot, hfound], trivial⟩
  | some w =>
    rw [hv, Option.toList_some, List.map_singleton, List.map_eq_singleton_iff] at hwritten
    obtain ⟨r, hr, hrw⟩ := hwritten
    have hmem : r ∈ rows := by
      have hself : r ∈ rows.filter fun r => r.1 = some f.1 := hr ▸ List.mem_singleton_self r
      exact (List.mem_filter.mp hself).1
    rw [hr, List.map_singleton, List.singleton_perm] at hfound
    refine ⟨.given r.2.2, by rw [entrySlot, ← hfound], ?_⟩
    have hw : r.2.1 = w := congrArg Prod.snd hrw
    exact hw ▸ hrows r hmem

/-- Every field is found where a rearranged table has it, or missing if it was left out. -/
theorem slots_hold {fields : List (String × Option Document)} (hnames : (fields.map (·.1)).Nodup)
    {d : Document} (h : (Document.table (layout fields)).Rearranged d) (dialect : Dialect) :
    ∃ given, slots dialect (fields.map (·.1)) d = some given ∧
      List.Forall₂ Slot.Holds given (fields.map (·.2)) := by
  obtain ⟨rows, entries, hfields, rfl, hrows, hperm⟩ := h.of_table
  have hkeys : (entries.all fun e => e.1.isSome) = true := by
    rw [List.all_eq_true]
    intro e he
    obtain ⟨r, hr, rfl⟩ := List.mem_map.mp (hperm.mem_iff.mpr he)
    have hmem : (r.1, r.2.1) ∈ layout fields := hfields ▸ List.mem_map.mpr ⟨r, hr, rfl⟩
    have hsome : r.1.isSome = true := isSome_of_mem_layout hmem
    exact hsome
  have hslot : ∀ f ∈ fields, ∃ s, entrySlot entries f.1 = some s ∧ s.Holds f.2 :=
    fun f hf => entrySlot_holds hnames hfields hrows hperm hf
  rw [slots, if_pos hkeys]
  clear hnames h hfields
  induction fields with
  | nil => exact ⟨[], rfl, .nil⟩
  | cons f rest ih =>
    obtain ⟨s, hs, hholds⟩ := hslot f List.mem_cons_self
    obtain ⟨given, hgiven, hall⟩ := ih fun g hg => hslot g (List.mem_cons_of_mem f hg)
    refine ⟨s :: given, ?_, .cons hholds hall⟩
    rw [List.map_cons, List.mapM_cons, hs, Option.bind_eq_bind, Option.bind_some, hgiven]
    rfl

namespace FieldReader

variable {α β : Type}

/-- From slots for the fields, the reader gets the value, and it leaves the slots behind them. -/
def Takes (reader : FieldReader α) (fields : List (Option Document)) (a : α) : Prop :=
  ∀ given rest, List.Forall₂ Slot.Holds given fields →
    reader.run (given ++ rest) = some (a, rest)

theorem takes_pure (a : α) : Takes (pure a) [] a := by
  intro given rest h
  cases h
  rfl

theorem Takes.bind {reader : FieldReader α} {next : α → FieldReader β} {field : Option Document}
    {fields : List (Option Document)} {a : α} {b : β} (h : Takes reader [field] a)
    (hnext : Takes (next a) fields b) : Takes (reader >>= next) (field :: fields) b := by
  intro given rest hgiven
  cases hgiven with
  | @cons s _ given _ hs hall =>
    have hfirst := h [s] (given ++ rest) (.cons hs .nil)
    rw [List.singleton_append] at hfirst
    rw [StateT.run_bind, List.cons_append, hfirst]
    exact hnext given rest hall

/-- A field that was written is read whatever is done about missing ones. -/
theorem takes_of_given {reader : FieldReader α} {read : Document → Option α} {w : Document} {a : α}
    (hreader : ∀ d rest, reader.run (.given d :: rest) = (read d).map fun a => (a, rest))
    (hread : ∀ d, w.Rearranged d → read d = some a) : Takes reader [some w] a := by
  intro given rest h
  cases h with
  | @cons s _ _ _ hs hnil =>
    cases hnil
    cases s with
    | given d => rw [List.singleton_append, hreader, hread d hs, Option.map_some]
    | keyMissing => exact hs.elim
    | itemMissing => exact hs.elim

theorem required_given (read : Document → Option α) (d : Document) (rest : List Slot) :
    (required read).run (.given d :: rest) = (read d).map fun a => (a, rest) := by
  change (StateT.lift (read d)).run rest = _
  cases read d <;> rfl

theorem defaulted_given (value : α) (read : Document → Option α) (d : Document)
    (rest : List Slot) :
    (defaulted value read).run (.given d :: rest) = (read d).map fun a => (a, rest) := by
  change (StateT.lift (read d)).run rest = _
  cases read d <;> rfl

theorem takes_missing (value : α) (read : Document → Option α) :
    Takes (defaulted value read) [none] value := by
  intro given rest h
  cases h with
  | @cons s _ _ _ hs hnil =>
    cases hnil
    cases s with
    | given d => exact hs.elim
    | keyMissing => rfl
    | itemMissing => exact hs.elim

theorem readRecord_of_rearranged {fields : List (String × Option Document)}
    (hnames : (fields.map (·.1)).Nodup) {reader : FieldReader α} {a : α}
    (hreader : Takes reader (fields.map (·.2)) a) {d : Document}
    (h : (Document.table (layout fields)).Rearranged d) (dialect : Dialect) :
    readRecord (fields.map (·.1)) reader dialect d = some a := by
  obtain ⟨given, hslots, hgiven⟩ := slots_hold hnames h dialect
  have hrun := hreader given [] hgiven
  rw [List.append_nil] at hrun
  rw [readRecord, hslots, Option.bind_eq_bind, Option.bind_some, hrun]
  rfl

end FieldReader

/-- Values that are read from every rearrangement of what they were written as, with the numbers
that are read for theirs. -/
class Restorable (α : Type) [Readable α] [Writable α] where
  /-- The value with other numbers. A field whose number has no other is left open. -/
  bindFloats : (Binary64 → Option Binary64) → α → α
  bindFloats_some : ∀ a, bindFloats some a = a
  read_of_rearranged : ∀ {g : Binary64 → Option Binary64} {a : α} {d : Document},
    ((write a).mapFloats (write ∘ g)).Rearranged d →
      ∀ dialect, read dialect d = some (bindFloats g a)
  /-- What is written for a value is not what is written for an open one. -/
  write_ne_null : ∀ (g : Binary64 → Option Binary64) (a : α),
    (write a).mapFloats (write ∘ g) ≠ .null

export Restorable (bindFloats bindFloats_some read_of_rearranged write_ne_null)

section Fields

variable {α : Type} [Readable α] [Writable α] [Restorable α] (dialect : Dialect)
  (g : Binary64 → Option Binary64)

theorem takes_required (a : α) :
    Takes (required (read dialect)) [some ((write a).mapFloats (write ∘ g))] (bindFloats g a) :=
  takes_of_given (required_given _) fun _ h => read_of_rearranged h dialect

theorem takes_defaulted (value a : α) :
    Takes (defaulted value (read dialect)) [some ((write a).mapFloats (write ∘ g))]
      (bindFloats g a) :=
  takes_of_given (defaulted_given _ _) fun _ h => read_of_rearranged h dialect

theorem takes_optional (a : Option α) :
    Takes (optional (read dialect)) [(a.map write).map (Document.mapFloats (write ∘ g))]
      (a.map (bindFloats g)) := by
  cases a with
  | none => exact takes_missing none _
  | some a =>
    refine takes_of_given (defaulted_given _ _) fun d h => ?_
    have hne : d ≠ .null := fun heq => write_ne_null g a (heq ▸ h).eq_null
    have hread := read_of_rearranged h dialect
    cases d <;> simp_all [nullable]

/-- A field without numbers is kept. -/
theorem takes_kept (hkept : ∀ a : α, bindFloats g a = a) (a : Option α) :
    Takes (optional (read dialect)) [(a.map write).map (Document.mapFloats (write ∘ g))] a := by
  have hmap : a.map (bindFloats g) = a := by
    cases a with
    | none => rfl
    | some a => exact congrArg some (hkept a)
  have htakes := takes_optional dialect g a
  rwa [hmap] at htakes

/-- A field with a number is left open when nothing is read for the number. -/
theorem takes_float (x : Option Binary64) :
    Takes (optional (read dialect)) [(x.map write).map (Document.mapFloats (write ∘ g))]
      (x.bind g) := by
  cases x with
  | none => exact takes_missing none _
  | some x =>
    refine takes_of_given (defaulted_given _ _) fun d (h : (write (g x)).Rearranged d) => ?_
    rw [Option.bind_some]
    cases hx : g x with
    | none =>
      rw [hx] at h
      cases h
      rfl
    | some y =>
      rw [hx] at h
      cases h
      rfl

end Fields

section Values

instance : Restorable String where
  bindFloats _ s := s
  bindFloats_some _ := rfl
  read_of_rearranged h _ := by
    cases h
    rfl
  write_ne_null _ _ := nofun

instance : Restorable Int32 where
  bindFloats _ n := n
  bindFloats_some _ := rfl
  read_of_rearranged {_ n} _ h _ := by
    cases h
    have hlo := n.le_toInt
    have hhi := n.toInt_lt
    have hrange : -2147483648 ≤ n.toInt ∧ n.toInt ≤ 2147483647 := by omega
    change (readInteger (-2147483648) 2147483647 (.integer n.toInt)).map Int32.ofInt = some n
    rw [readInteger, if_pos hrange, Option.map_some, Int32.ofInt_toInt]
  write_ne_null _ _ := nofun

instance : Restorable SessionState where
  bindFloats _ s := s
  bindFloats_some _ := rfl
  read_of_rearranged {_ s} _ h _ := by
    cases h
    cases s <;> rfl
  write_ne_null _ _ := nofun

instance : Restorable NodeKind where
  bindFloats _ k := k
  bindFloats_some _ := rfl
  read_of_rearranged {_ k} _ h _ := by
    cases h
    cases k <;> rfl
  write_ne_null _ _ := nofun

instance : Restorable LinkKind where
  bindFloats _ k := k
  bindFloats_some _ := rfl
  read_of_rearranged {_ k} _ h _ := by
    cases h
    cases k <;> rfl
  write_ne_null _ _ := nofun

variable {α : Type} [Readable α] [Writable α] [Restorable α]

theorem mapM_read {g : Binary64 → Option Binary64} {items : List α}
    {pairs : List (Document × Document)}
    (hitems : items.map (fun a => (write a).mapFloats (write ∘ g)) = pairs.map (·.1))
    (hpairs : ∀ p ∈ pairs, p.1.Rearranged p.2) (dialect : Dialect) :
    (pairs.map (·.2)).mapM (read dialect) = some (items.map (bindFloats g)) := by
  induction items generalizing pairs with
  | nil =>
    obtain rfl := List.map_eq_nil_iff.mp hitems.symm
    rfl
  | cons a rest ih =>
    obtain ⟨p, pairs, rfl, hp, hrest⟩ := List.map_eq_cons_iff.mp hitems.symm
    obtain ⟨hfirst, hpairs⟩ := List.forall_mem_cons.mp hpairs
    rw [hp] at hfirst
    rw [List.map_cons, List.mapM_cons, read_of_rearranged hfirst dialect, Option.bind_eq_bind,
      Option.bind_some, ih hrest.symm hpairs]
    rfl

instance : Restorable (List α) where
  bindFloats g items := items.map (bindFloats g)
  bindFloats_some items := by
    rw [List.map_congr_left fun a _ => bindFloats_some a]
    exact List.map_id items
  read_of_rearranged {g items} d h dialect := by
    have hlist : (write items).mapFloats (write ∘ g) =
        .list (items.map fun a => (write a).mapFloats (write ∘ g)) :=
      (Document.mapFloats_list _ _).trans (congrArg _ (List.map_map ..))
    rw [hlist] at h
    obtain ⟨pairs, hitems, rfl, hpairs⟩ := h.of_list
    exact mapM_read hitems hpairs dialect
  write_ne_null _ _ := nofun

instance : Restorable (SortedSet String) where
  bindFloats _ s := s
  bindFloats_some _ := rfl
  read_of_rearranged {g s} d h dialect := by
    have hnames : read dialect d = some (bindFloats g (SortedSet.toList s)) :=
      read_of_rearranged
        (show ((write (SortedSet.toList s)).mapFloats (write ∘ g)).Rearranged d from h) dialect
    have hsame : bindFloats g (SortedSet.toList s) = SortedSet.toList s := List.map_id _
    change (read dialect d).map SortedSet.ofList = some s
    rw [hnames, hsame, Option.map_some, SortedSet.ofList_toList]
  write_ne_null _ _ := nofun

end Values

/-- Records that are written as a table of their fields. -/
class Tabular (α : Type) [Writable α] where
  /-- The fields by name; one that is left out has no document. -/
  fields : α → List (String × Option Document)
  names_nodup : ∀ a, ((fields a).map (·.1)).Nodup
  write_eq_layout : ∀ a, write a = .table (layout (fields a))

export Tabular (fields names_nodup write_eq_layout)

section Records

theorem map_bindFloats_some {α : Type} [Readable α] [Writable α] [Restorable α] (a : Option α) :
    a.map (bindFloats some) = a := by
  cases a with
  | none => rfl
  | some a => exact congrArg some (bindFloats_some a)

theorem mapFloats_layout (f : Binary64 → Document) (fields : List (String × Option Document)) :
    (Document.table (layout fields)).mapFloats f =
      .table (layout (fields.map fun e => (e.1, e.2.map (Document.mapFloats f)))) := by
  rw [Document.mapFloats_table]
  congr 1
  induction fields with
  | nil => rfl
  | cons e fields ih =>
    obtain ⟨name, d⟩ := e
    cases d with
    | none => exact ih
    | some d => exact congrArg ((some name, d.mapFloats f) :: ·) ih

theorem write_tabular_ne_null {α : Type} [Writable α] [Tabular α]
    (g : Binary64 → Option Binary64) (a : α) : (write a).mapFloats (write ∘ g) ≠ .null := by
  rw [write_eq_layout, mapFloats_layout]
  exact nofun

theorem read_of_tabular {α : Type} [Writable α] [Tabular α] {f : Binary64 → Document} {a b : α}
    {reader : FieldReader α}
    (hreader : Takes reader ((fields a).map fun e => e.2.map (Document.mapFloats f)) b)
    {d : Document} (h : ((write a).mapFloats f).Rearranged d) (dialect : Dialect) :
    readRecord ((fields a).map (·.1)) reader dialect d = some b := by
  have hnames : ((fields a).map fun e => (e.1, e.2.map (Document.mapFloats f))).map (·.1) =
      (fields a).map (·.1) := List.map_map ..
  have hreader' : Takes reader
      (((fields a).map fun e => (e.1, e.2.map (Document.mapFloats f))).map (·.2)) b := by
    rwa [List.map_map]
  rw [write_eq_layout, mapFloats_layout] at h
  have hread := readRecord_of_rearranged (hnames ▸ names_nodup a) hreader' h dialect
  rwa [hnames] at hread

instance : Tabular Position where
  fields p := [("x", p.x.map write), ("y", p.y.map write)]
  names_nodup _ := by simp
  write_eq_layout p := by
    simp only [layout_openField, layout_nil, List.append_nil]
    rfl

def Position.bindFloats (g : Binary64 → Option Binary64) (p : Position) : Position :=
  { x := p.x.bind g, y := p.y.bind g }

instance : Restorable Position where
  bindFloats := Position.bindFloats
  bindFloats_some p := by simp only [Position.bindFloats, Option.bind_fun_some]
  read_of_rearranged {g p} _ h dialect :=
    read_of_tabular (.bind (takes_float dialect g p.x) <| .bind (takes_float dialect g p.y) <|
      takes_pure (p.bindFloats g)) h dialect
  write_ne_null := write_tabular_ne_null

instance : Tabular Interface where
  fields i :=
    [("id", i.id.map write), ("name", i.name.map write), ("mac", i.mac.map write),
     ("ip4", i.ip4.map write), ("ip4_mask", i.ip4Mask.map write), ("ip6", i.ip6.map write),
     ("ip6_mask", i.ip6Mask.map write)]
  names_nodup _ := by simp
  write_eq_layout i := by
    simp only [layout_openField, layout_nil, List.append_nil]
    simp only [write, List.append_assoc]

instance : Restorable Interface where
  bindFloats _ i := i
  bindFloats_some _ := rfl
  read_of_rearranged {g i} _ h dialect :=
    read_of_tabular (.bind (takes_kept dialect g (fun _ => rfl) i.id) <|
      .bind (takes_kept dialect g (fun _ => rfl) i.name) <|
      .bind (takes_kept dialect g (fun _ => rfl) i.mac) <|
      .bind (takes_kept dialect g (fun _ => rfl) i.ip4) <|
      .bind (takes_kept dialect g (fun _ => rfl) i.ip4Mask) <|
      .bind (takes_kept dialect g (fun _ => rfl) i.ip6) <|
      .bind (takes_kept dialect g (fun _ => rfl) i.ip6Mask) <| takes_pure i) h dialect
  write_ne_null := write_tabular_ne_null

instance : Tabular LinkOptions where
  fields o :=
    [("bandwidth", o.bandwidth.map write), ("burst", o.burst.map write),
     ("delay", o.delay.map write), ("jitter", o.jitter.map write), ("dup", o.dup.map write),
     ("per", o.per.map write), ("mburst", o.mburst.map write), ("mer", o.mer.map write),
     ("opaque", o.opaqueData.map write), ("key", o.key.map write),
     ("unidirectional", some (write o.unidirectional))]
  names_nodup _ := by simp
  write_eq_layout o := by
    simp only [layout_openField, layout_field, layout_nil, List.append_nil]
    simp only [write, List.append_assoc]

def LinkOptions.bindFloats (g : Binary64 → Option Binary64) (o : LinkOptions) : LinkOptions :=
  { o with
    bandwidth := o.bandwidth.bind g, burst := o.burst.bind g, delay := o.delay.bind g
    jitter := o.jitter.bind g, dup := o.dup.bind g, per := o.per.bind g
    mburst := o.mburst.bind g, mer := o.mer.bind g }

instance : Restorable LinkOptions where
  bindFloats := LinkOptions.bindFloats
  bindFloats_some o := by simp only [LinkOptions.bindFloats, Option.bind_fun_some]
  read_of_rearranged {g o} _ h dialect :=
    read_of_tabular (.bind (takes_float dialect g o.bandwidth) <|
      .bind (takes_float dialect g o.burst) <| .bind (takes_float dialect g o.delay) <|
      .bind (takes_float dialect g o.jitter) <| .bind (takes_float dialect g o.dup) <|
      .bind (takes_float dialect g o.per) <| .bind (takes_float dialect g o.mburst) <|
      .bind (takes_float dialect g o.mer) <|
      .bind (takes_kept dialect g (fun _ => rfl) o.opaqueData) <|
      .bind (takes_kept dialect g (fun _ => rfl) o.key) <|
      .bind (takes_defaulted dialect g 0 o.unidirectional) <|
      takes_pure (o.bindFloats g)) h dialect
  write_ne_null := write_tabular_ne_null

instance : Tabular Link where
  fields l :=
    [("node_one", l.nodeOne.map write), ("node_two", l.nodeTwo.map write),
     ("interface_one", l.interfaceOne.map write), ("interface_two", l.interfaceTwo.map write),
     ("options", l.options.map write), ("type", some (write l.kind))]
  names_nodup _ := by simp
  write_eq_layout l := by
    simp only [layout_openField, layout_field, layout_nil, List.append_nil]
    simp only [write, List.append_assoc]

def Link.bindFloats (g : Binary64 → Option Binary64) (l : Link) : Link :=
  { l with options := l.options.map (LinkOptions.bindFloats g) }

instance : Restorable Link where
  bindFloats := Link.bindFloats
  bindFloats_some l := by
    have hoptions : l.options.map (LinkOptions.bindFloats some) = l.options :=
      map_bindFloats_some l.options
    rw [Link.bindFloats, hoptions]
  read_of_rearranged {g l} _ h dialect :=
    read_of_tabular (.bind (takes_kept dialect g (fun _ => rfl) l.nodeOne) <|
      .bind (takes_kept dialect g (fun _ => rfl) l.nodeTwo) <|
      .bind (takes_kept dialect g (fun _ => rfl) l.interfaceOne) <|
      .bind (takes_kept dialect g (fun _ => rfl) l.interfaceTwo) <|
      .bind (takes_optional dialect g l.options) <|
      .bind (takes_defaulted dialect g .wired l.kind) <|
      takes_pure (l.bindFloats g)) h dialect
  write_ne_null := write_tabular_ne_null

/-- The services of a node as they are written; an empty set is left out. -/
def Node.writtenServices (n : Node) : Option Document :=
  if n.services.isEmpty then none else some (write n.services)

theorem layout_services (n : Node) (fields : List (String × Option Document)) :
    layout (("services", n.writtenServices) :: fields) =
      (if n.services.isEmpty then [] else field "services" n.services) ++ layout fields := by
  rw [Node.writtenServices]
  split <;> rfl

theorem takes_services (dialect : Dialect) (g : Binary64 → Option Binary64) (n : Node) :
    Takes (defaulted .empty (read dialect))
      [n.writtenServices.map (Document.mapFloats (write ∘ g))] n.services := by
  rw [Node.writtenServices]
  split
  case isTrue hempty =>
    have hentries : n.services.entries = [] := List.isEmpty_iff.mp hempty
    have hnone : n.services = .empty := SortedMap.ext hentries
    rw [hnone]
    exact takes_missing _ _
  case isFalse => exact takes_defaulted dialect g _ n.services

instance : Tabular Node where
  fields n :=
    [("id", n.id.map write), ("name", n.name.map write), ("type", some (write n.kind)),
     ("position", n.position.map write), ("services", n.writtenServices),
     ("emane", n.emane.map write), ("model", n.model.map write), ("icon", n.icon.map write)]
  names_nodup _ := by simp
  write_eq_layout n := by
    simp only [layout_openField, layout_field, layout_services, layout_nil, List.append_nil]
    simp only [write, List.append_assoc]

def Node.bindFloats (g : Binary64 → Option Binary64) (n : Node) : Node :=
  { n with position := n.position.map (Position.bindFloats g) }

instance : Restorable Node where
  bindFloats := Node.bindFloats
  bindFloats_some n := by
    have hposition : n.position.map (Position.bindFloats some) = n.position :=
      map_bindFloats_some n.position
    rw [Node.bindFloats, hposition]
  read_of_rearranged {g n} _ h dialect :=
    read_of_tabular (.bind (takes_kept dialect g (fun _ => rfl) n.id) <|
      .bind (takes_kept dialect g (fun _ => rfl) n.name) <|
      .bind (takes_defaulted dialect g .default n.kind) <|
      .bind (takes_optional dialect g n.position) <| .bind (takes_services dialect g n) <|
      .bind (takes_kept dialect g (fun _ => rfl) n.emane) <|
      .bind (takes_kept dialect g (fun _ => rfl) n.model) <|
      .bind (takes_kept dialect g (fun _ => rfl) n.icon) <|
      takes_pure (n.bindFloats g)) h dialect
  write_ne_null := write_tabular_ne_null

instance : Tabular Hook where
  fields k :=
    [("state", some (write k.state)), ("file", some (write k.file)), ("data", some (write k.data))]
  names_nodup _ := by simp
  write_eq_layout _ := rfl

instance : Restorable Hook where
  bindFloats _ k := k
  bindFloats_some _ := rfl
  read_of_rearranged {g k} _ h dialect :=
    read_of_tabular (.bind (takes_required dialect g k.state) <|
      .bind (takes_required dialect g k.file) <| .bind (takes_defaulted dialect g "" k.data) <|
      takes_pure k) h dialect
  write_ne_null := write_tabular_ne_null

theorem takes_hooks (dialect : Dialect) (g : Binary64 → Option Binary64) (hooks : List Hook) :
    Takes (defaulted [] (read dialect)) [some ((write hooks).mapFloats (write ∘ g))] hooks := by
  have hkept : bindFloats g hooks = hooks := List.map_id hooks
  have htakes := takes_defaulted dialect g [] hooks
  rwa [hkept] at htakes

instance : Tabular Topology where
  fields t :=
    [("nodes", some (write t.nodes)), ("links", some (write t.links)),
     ("hooks", some (write t.hooks))]
  names_nodup _ := by simp
  write_eq_layout _ := rfl

/-- The topology with other numbers. A field whose number has no other is left open. -/
def Topology.bindFloats (g : Binary64 → Option Binary64) (t : Topology) : Topology :=
  { t with nodes := t.nodes.map (Node.bindFloats g), links := t.links.map (Link.bindFloats g) }

instance : Restorable Topology where
  bindFloats := Topology.bindFloats
  bindFloats_some t := by
    have hnodes : t.nodes.map (Node.bindFloats some) = t.nodes := bindFloats_some t.nodes
    have hlinks : t.links.map (Link.bindFloats some) = t.links := bindFloats_some t.links
    rw [Topology.bindFloats, hnodes, hlinks]
  read_of_rearranged {g t} _ h dialect :=
    read_of_tabular (.bind (takes_defaulted dialect g [] t.nodes) <|
      .bind (takes_defaulted dialect g [] t.links) <|
      .bind (takes_hooks dialect g t.hooks) <| takes_pure (t.bindFloats g)) h dialect
  write_ne_null := write_tabular_ne_null

end Records

end EmuControl
