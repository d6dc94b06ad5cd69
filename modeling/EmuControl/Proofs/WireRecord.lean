import EmuControl.Wire.Record
import Mathlib.Algebra.Order.Group.Nat
import Mathlib.Tactic.Ring

/-!
# Records from their encoding

Every part of a record is read back from its encoding with whatever follows it, and so a sequence of
records is read back as a whole. The records that a schema writes are plain: their tags fit a key,
and none of them is a group. Lengths are limited by the width of the numbers that state them; bytes
that all stand in one encoding of less than `2 ^ 64` octets are within that limit.
-/
namespace EmuControl.Wire

theorem toNat_octet {n : Nat} (hn : n < 256) : (UInt8.ofNat n).toNat = n :=
  UInt8.toNat_ofNat_of_lt' hn

namespace Varint

theorem encode_ne_nil (n : Nat) : encode n ≠ [] := by
  rw [encode]
  split <;> exact List.cons_ne_nil _ _

/-- The first `left` octets hold seven bits each and the last one holds one. -/
theorem readUpTo_encode {left n : Nat} (hn : n < 2 ^ (7 * left + 1)) (rest : Bytes) :
    readUpTo (left + 1) (encode n ++ rest) = some (n, rest) := by
  induction left generalizing n with
  | zero =>
    have hsmall : n = 0 ∨ n = 1 := by omega
    rcases hsmall with rfl | rfl <;> simp [encode, readUpTo]
  | succ left ih =>
    rw [encode]
    split
    · rename_i hsmall
      have hoctet : (UInt8.ofNat n).toNat = n := toNat_octet (by omega)
      have hlast : UInt8.ofNat n < 128 := by
        rw [UInt8.lt_iff_toNat_lt, hoctet]
        exact hsmall
      simp [readUpTo, hlast, hoctet]
    · have hoctet : (UInt8.ofNat (n % 128 + 128)).toNat = n % 128 + 128 :=
        toNat_octet (by omega)
      have hmore : ¬ UInt8.ofNat (n % 128 + 128) < 128 := by
        rw [UInt8.lt_iff_toNat_lt, hoctet]
        exact Nat.not_lt.mpr (Nat.le_add_left _ _)
      have hhigh : n / 128 < 2 ^ (7 * left + 1) := by
        rw [Nat.div_lt_iff_lt_mul (by decide)]
        calc n < 2 ^ (7 * (left + 1) + 1) := hn
          _ = 2 ^ (7 * left + 1) * 128 := by ring
      rw [List.cons_append, readUpTo, if_neg hmore, ih hhigh, hoctet, Option.map_some]
      simp only [Nat.add_sub_cancel, Nat.div_add_mod']

theorem read_encode {n : Nat} (hn : n < 2 ^ 64) (rest : Bytes) :
    read (encode n ++ rest) = some (n, rest) :=
  readUpTo_encode hn rest

end Varint

theorem Key.read_encode {tag wireType : Nat} (hpos : 0 < tag) (htag : tag < 2 ^ 29)
    (hwire : wireType < 8) (rest : Bytes) :
    Key.read (Key.encode ⟨tag, wireType⟩ ++ rest) = some (⟨tag, wireType⟩, rest) := by
  have hsize : tag * 8 + wireType < UInt32.size := by
    change _ < 2 ^ 32
    omega
  have hread := Varint.read_encode (n := tag * 8 + wireType) (by omega) rest
  have hdiv : (tag * 8 + wireType) / 8 = tag := by omega
  have hmod : (tag * 8 + wireType) % 8 = wireType := by omega
  have hne : tag ≠ 0 := by omega
  simp only [Key.read, Key.encode, hread, Option.bind_eq_bind, Option.bind_some, hdiv, hmod]
  rw [if_pos ⟨hsize, hne⟩]

theorem splitBytes_append (bytes rest : Bytes) :
    splitBytes bytes.length (bytes ++ rest) = some (bytes, rest) := by
  simp [splitBytes]

theorem length_littleEndian (width n : Nat) : (littleEndian width n).length = width := by
  induction width generalizing n with
  | zero => rfl
  | succ width ih => rw [littleEndian, List.length_cons, ih]

theorem ofLittleEndian_littleEndian (width : Nat) {n : Nat} (hn : n < 256 ^ width) :
    ofLittleEndian (littleEndian width n) = n := by
  induction width generalizing n with
  | zero =>
    rw [pow_zero, Nat.lt_one_iff] at hn
    rw [hn]
    rfl
  | succ width ih =>
    have hhigh : n / 256 < 256 ^ width := by
      rw [Nat.div_lt_iff_lt_mul (by decide), ← pow_succ]
      exact hn
    have hoctet : (UInt8.ofNat (n % 256)).toNat = n % 256 := toNat_octet (by omega)
    rw [littleEndian, ofLittleEndian, hoctet, ih hhigh, Nat.mod_add_div]

theorem splitBytes_littleEndian (width n : Nat) (rest : Bytes) :
    splitBytes width (littleEndian width n ++ rest) = some (littleEndian width n, rest) := by
  have h := splitBytes_append (littleEndian width n) rest
  rwa [length_littleEndian] at h

namespace Record

/-- A record that a field can be written as. -/
structure IsField (r : Record) : Prop where
  tag_pos : 0 < r.tag
  tag_lt : r.tag < 2 ^ 29
  payload_ne : r.payload ≠ .group

theorem encode_ne_nil (r : Record) : r.encode ≠ [] := by
  rw [encode]
  split <;> simp [Key.encode, Varint.encode_ne_nil]

theorem read_encode {r : Record} (hr : r.IsField) (hlen : r.encode.length < 2 ^ 64) (budget : Nat)
    (rest : Bytes) : read budget (r.encode ++ rest) = some (r, rest) := by
  obtain ⟨tag, payload⟩ := r
  have hkey : ∀ wireType < 8, ∀ rest, Key.read (Key.encode ⟨tag, wireType⟩ ++ rest) =
      some (⟨tag, wireType⟩, rest) := fun _ => Key.read_encode hr.tag_pos hr.tag_lt
  cases payload with
  | varint n =>
    have hn := Varint.read_encode n.toNat_lt rest
    simp [read, encode, hkey 0 (by decide), Payload.read, hn]
  | fixed64 n =>
    have hn := ofLittleEndian_littleEndian 8 n.toNat_lt
    simp [read, encode, hkey 1 (by decide), Payload.read, splitBytes_littleEndian, hn]
  | delimited bytes =>
    have hbytes : bytes.length < 2 ^ 64 := by
      simp only [encode, List.length_append] at hlen
      omega
    have hn := Varint.read_encode hbytes (bytes ++ rest)
    simp [read, encode, hkey 2 (by decide), Payload.read, hn, splitBytes_append]
  | group => exact absurd rfl hr.payload_ne
  | fixed32 n =>
    have hn := ofLittleEndian_littleEndian 4 n.toNat_lt
    simp [read, encode, hkey 5 (by decide), Payload.read, splitBytes_littleEndian, hn]

theorem encodeAll_cons (r : Record) (rs : List Record) :
    encodeAll (r :: rs) = r.encode ++ encodeAll rs :=
  rfl

theorem readAll_encodeAll {rs : List Record} (hrs : ∀ r ∈ rs, r.IsField)
    (hlen : (encodeAll rs).length < 2 ^ 64) (budget : Nat) {fuel : Nat}
    (hfuel : (encodeAll rs).length ≤ fuel) : readAll budget fuel (encodeAll rs) = some rs := by
  induction rs generalizing fuel with
  | nil => cases fuel <;> rfl
  | cons r rs ih =>
    obtain ⟨hr, hrs⟩ := List.forall_mem_cons.mp hrs
    rw [encodeAll_cons, List.length_append] at hlen hfuel
    have hpos : 0 < r.encode.length := List.length_pos_iff.mpr r.encode_ne_nil
    obtain ⟨fuel, rfl⟩ : ∃ k, fuel = k + 1 := ⟨fuel - 1, by omega⟩
    have hread := read_encode hr (by omega) budget (encodeAll rs)
    have hne : r.encode ++ encodeAll rs ≠ [] := by simp [r.encode_ne_nil]
    have hrest : readAll budget fuel (encodeAll rs) = some rs := ih hrs (by omega) (by omega)
    rw [encodeAll_cons, readAll.eq_3 budget _ fuel hne, hread]
    simp [hrest]

theorem parse_encodeAll {rs : List Record} (hrs : ∀ r ∈ rs, r.IsField)
    (hlen : (encodeAll rs).length < 2 ^ 64) (budget : Nat) :
    parse budget (encodeAll rs) = some rs :=
  readAll_encodeAll hrs hlen budget le_rfl

theorem length_lt_of_append {own others : List Record} {n : Nat}
    (h : (encodeAll (own ++ others)).length < n) :
    (encodeAll own).length < n ∧ (encodeAll others).length < n := by
  rw [encodeAll, List.flatMap_append, List.length_append] at h
  exact ⟨(Nat.le_add_right _ _).trans_lt h, (Nat.le_add_left _ _).trans_lt h⟩

/-- A body is no longer than the whole. -/
theorem length_le_of_delimited_mem {tag : Nat} {bytes : Bytes} {rs : List Record}
    (h : ⟨tag, .delimited bytes⟩ ∈ rs) : bytes.length ≤ (encodeAll rs).length := by
  induction rs with
  | nil => cases h
  | cons r rs ih =>
    rw [encodeAll_cons, List.length_append]
    rcases List.mem_cons.mp h with rfl | h
    · simp only [encode, List.length_append]
      omega
    · exact (ih h).trans (Nat.le_add_left _ _)

theorem length_body_lt {α : Type} {tag n : Nat} {body : α → Bytes} {xs : List α}
    (h : (encodeAll (xs.map fun x => ⟨tag, .delimited (body x)⟩)).length < n) {x : α}
    (hx : x ∈ xs) : (body x).length < n := by
  have hmem : ⟨tag, .delimited (body x)⟩ ∈ xs.map fun x => Record.mk tag (.delimited (body x)) :=
    List.mem_map_of_mem hx
  exact (length_le_of_delimited_mem hmem).trans_lt h

end Record

end EmuControl.Wire
