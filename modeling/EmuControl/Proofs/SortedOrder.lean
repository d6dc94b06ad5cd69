import EmuControl.Order.SortedMap
import EmuControl.Text.Utf8
import Mathlib.Data.List.Basic
import Mathlib.Tactic.SplitIfs

/-!
# Maps and sets from lists

Putting the entries of a map in one after the other gives the map again, because each of them comes
after all that are there already. The set of a list has the members of the list, in ascending order.

For text, ascending means by bytes as well as by code points: UTF-8 keeps the order, and of two
different characters neither form begins with the other.
-/
namespace EmuControl

open Std

namespace SortedMap

variable {κ ν : Type} [Ord κ]

theorem place_of_forall_lt [OrientedOrd κ] {k : κ} {v : ν} {es : List (κ × ν)}
    (h : ∀ e ∈ es, compare e.1 k = .lt) : place k v es = es ++ [(k, v)] := by
  induction es with
  | nil => rfl
  | cons e rest ih =>
    obtain ⟨hlt, hrest⟩ := List.forall_mem_cons.mp h
    have hgt : compare k e.1 = .gt := OrientedCmp.gt_of_lt hlt
    rw [place, hgt]
    exact congrArg (e :: ·) (ih hrest)

theorem mem_place_self (k : κ) (v : ν) (es : List (κ × ν)) : (k, v) ∈ place k v es := by
  induction es with
  | nil => simp [place]
  | cons e rest ih =>
    rw [place]
    split
    · exact List.mem_cons_self
    · exact List.mem_cons_self
    · exact List.mem_cons_of_mem _ ih

theorem mem_keys_place_of_mem [LawfulEqOrd κ] {k k' : κ} {v : ν} {es : List (κ × ν)}
    (h : k' ∈ es.map (·.1)) : k' ∈ (place k v es).map (·.1) := by
  induction es with
  | nil => cases h
  | cons e rest ih =>
    rw [place]
    split
    · exact List.mem_cons_of_mem _ h
    · rename_i heq
      rw [List.map_cons, ← LawfulEqCmp.eq_of_compare heq] at h
      exact h
    · rcases List.mem_cons.mp h with rfl | h
      · exact List.mem_cons_self
      · exact List.mem_cons_of_mem _ (ih h)

variable [TransOrd κ] [LawfulEqOrd κ]

theorem mem_keys_insert {m : SortedMap κ ν} {k k' : κ} {v : ν} :
    k' ∈ (m.insert k v).keys ↔ k' = k ∨ k' ∈ m.keys := by
  constructor
  · intro h
    obtain ⟨e, he, rfl⟩ := List.mem_map.mp h
    rcases mem_place he with rfl | he
    · exact .inl rfl
    · exact .inr (List.mem_map_of_mem he)
  · rintro (rfl | h)
    · exact List.mem_map_of_mem (mem_place_self k' v m.entries)
    · exact mem_keys_place_of_mem h

theorem mem_keys_insertAll {m : SortedMap κ ν} {es : List (κ × ν)} {k : κ} :
    k ∈ (m.insertAll es).keys ↔ k ∈ m.keys ∨ k ∈ es.map (·.1) := by
  induction es generalizing m with
  | nil => simp [insertAll]
  | cons e rest ih =>
    change k ∈ ((m.insert e.1 e.2).insertAll rest).keys ↔ _
    rw [ih, mem_keys_insert, List.map_cons, List.mem_cons]
    tauto

/-- Entries that come after all others are appended. -/
theorem entries_insert_of_lt {m : SortedMap κ ν} {k : κ} {v : ν}
    (h : ∀ e ∈ m.entries, compare e.1 k = .lt) :
    (m.insert k v).entries = m.entries ++ [(k, v)] :=
  place_of_forall_lt h

theorem entries_insertAll {m : SortedMap κ ν} {es : List (κ × ν)}
    (h : (m.entries ++ es).Pairwise fun a b => compare a.1 b.1 = .lt) :
    (m.insertAll es).entries = m.entries ++ es := by
  induction es generalizing m with
  | nil => exact (List.append_nil _).symm
  | cons e rest ih =>
    have hlt : ∀ e' ∈ m.entries, compare e'.1 e.1 = .lt := fun e' he' =>
      (List.pairwise_append.mp h).2.2 e' he' e List.mem_cons_self
    have hnext : (m.insert e.1 e.2).entries ++ rest = m.entries ++ e :: rest := by
      rw [entries_insert_of_lt hlt, List.append_assoc]
      rfl
    change ((m.insert e.1 e.2).insertAll rest).entries = _
    rw [ih (by rwa [hnext]), hnext]

theorem ofList_entries (m : SortedMap κ ν) : ofList m.entries = m := by
  apply SortedMap.ext
  exact entries_insertAll m.sorted

end SortedMap

namespace SortedSet

variable {κ : Type} [Ord κ]

theorem toList_pairwise (s : SortedSet κ) : s.toList.Pairwise fun a b => compare a b = .lt :=
  List.pairwise_map.mpr s.sorted

variable [TransOrd κ] [LawfulEqOrd κ]

theorem mem_toList_ofList {xs : List κ} {x : κ} : x ∈ toList (ofList xs) ↔ x ∈ xs := by
  have h : x ∈ toList (ofList xs) ↔
      x ∈ (SortedMap.empty : SortedSet κ).keys ∨ x ∈ (xs.map fun x => (x, ())).map (·.1) :=
    SortedMap.mem_keys_insertAll
  rw [h, List.map_map]
  simp [SortedMap.keys, SortedMap.empty]

theorem ofList_toList (s : SortedSet κ) : ofList s.toList = s := by
  have hentries : s.toList.map (fun x => (x, ())) = s.entries := by
    rw [toList, SortedMap.keys, List.map_map]
    exact List.map_id _
  rw [ofList, hentries]
  exact SortedMap.ofList_entries s

end SortedSet

/-! The order of bytes -/

namespace Bytes

theorem ofText_eq_flatMap (s : String) : ofText s = s.toList.flatMap String.utf8EncodeChar := by
  rw [ofText, ← String.utf8Encode_toList, List.utf8Encode, List.data_toByteArray]

theorem char_val_lt (c : Char) : c.val.toNat < 0x110000 := by
  have h := c.valid
  simp only [UInt32.isValidChar, Nat.isValidChar] at h
  omega

theorem cons_lt_cons {x y : Nat} {as bs : List UInt8} (hy : y < 256)
    (h : x < y ∨ x = y ∧ as < bs) : UInt8.ofNat x :: as < UInt8.ofNat y :: bs := by
  rw [List.cons_lt_cons_iff]
  rcases h with h | ⟨rfl, h⟩
  · left
    rw [UInt8.lt_iff_toNat_lt, UInt8.toNat_ofNat', UInt8.toNat_ofNat']
    omega
  · exact .inr ⟨rfl, h⟩

/-- The forms of two different characters differ before either ends. -/
theorem utf8EncodeChar_lt {a b : Char} (h : a < b) (as bs : Bytes) :
    String.utf8EncodeChar a ++ as < String.utf8EncodeChar b ++ bs := by
  have hlt : a.val.toNat < b.val.toNat := h
  have hmax := char_val_lt b
  have hdiv : ∀ v : Nat, v / 4096 = v / 64 / 64 ∧ v / 262144 = v / 64 / 64 / 64 := by omega
  simp only [String.utf8EncodeChar, hdiv]
  generalize a.val.toNat = m at hlt
  generalize b.val.toNat = n at hlt hmax
  -- The first octet decides between forms of different length. Forms of one length are compared
  -- octet by octet, each of them six bits of the code point, from the top.
  split_ifs <;> (try omega) <;> simp only [List.cons_append, List.nil_append] <;>
    repeat' first
      | exact cons_lt_cons (by omega) (.inl (by omega))
      | refine cons_lt_cons (by omega)
          ((Nat.lt_or_eq_of_le (by omega)).imp id fun heq => ⟨heq, ?_⟩)

theorem flatMap_utf8EncodeChar_lt {as bs : List Char} (h : as < bs) :
    as.flatMap String.utf8EncodeChar < bs.flatMap String.utf8EncodeChar := by
  induction as generalizing bs with
  | nil =>
    cases bs with
    | nil => cases h
    | cons b bs =>
      obtain ⟨octet, rest, hb⟩ := List.exists_cons_of_ne_nil (String.utf8EncodeChar_ne_nil (c := b))
      rw [List.flatMap_nil, List.flatMap_cons, hb]
      exact List.nil_lt_cons _ _
  | cons a as ih =>
    cases bs with
    | nil => cases h
    | cons b bs =>
      rw [List.flatMap_cons, List.flatMap_cons]
      rcases List.cons_lt_cons_iff.mp h with hhead | ⟨rfl, htail⟩
      · exact utf8EncodeChar_lt hhead _ _
      · exact List.append_left_lt (ih htail)

/-- The order of texts is the order of their bytes. -/
theorem ofText_lt_of_compare {a b : String} (h : compare a b = .lt) : ofText a < ofText b := by
  have hlt : a < b := compareOfLessAndEq_eq_lt.mp h
  rw [ofText_eq_flatMap, ofText_eq_flatMap]
  exact flatMap_utf8EncodeChar_lt (String.lt_iff.mp hlt)

end Bytes

end EmuControl
