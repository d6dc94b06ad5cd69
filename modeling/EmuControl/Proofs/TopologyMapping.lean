import EmuControl.Mapping.Node
import EmuControl.Proofs.BinaryConversion
import EmuControl.Proofs.DecimalInteger
import EmuControl.Proofs.LinkMapping
import EmuControl.Proofs.SortedOrder

/-!
# Nodes and links through the wire and back

A node or link that goes out and comes in again is normalized: floats are rounded to 32 bits, masks
are rewritten in canonical decimal, and of `unidirectional` it is kept whether it is 1. Nothing else
changes, and what is normalized already does not change at all.

In the other direction, the numbers of enumeration members and the text of a key decide whether a
message is accepted. An accepted message loses the order and repetition of its services, the
coordinates of a node that are not on the canvas, and the notation of its key.
-/
namespace EmuControl

open EmuControl.Number EmuControl.Text

/-- The text is an integer of 32 bits between blanks. -/
def HoldsInt32 (text : String) : Prop :=
  ∃ n : Int32, IsDecimal (trim text).toList n.toInt

/-- The canonical decimal text of the integer that a text holds. -/
def canonicalDecimal (text : String) : String :=
  (readInt32? (trim text)).elim text writeInt32

theorem canonicalDecimal_eq {text : String} {n : Int32} (h : IsDecimal (trim text).toList n.toInt) :
    canonicalDecimal text = writeInt32 n := by
  rw [canonicalDecimal, readInt32?_eq_some_iff.mpr h]
  rfl

theorem canonicalDecimal_idem (text : String) :
    canonicalDecimal (canonicalDecimal text) = canonicalDecimal text := by
  unfold canonicalDecimal
  cases h : readInt32? (trim text) with
  | none => simp [h]
  | some n => simp [readInt32?_writeInt32]

theorem holdsInt32_iff {text : String} : HoldsInt32 text ↔ readInt32? (trim text) ≠ none := by
  rw [Option.ne_none_iff_exists', HoldsInt32]
  exact exists_congr fun n => readInt32?_eq_some_iff.symm

theorem HoldsInt32.canonicalDecimal {text : String} (h : HoldsInt32 text) :
    HoldsInt32 (canonicalDecimal text) := by
  obtain ⟨n, hn⟩ := h
  rw [canonicalDecimal_eq hn, holdsInt32_iff, trim_writeInt32, readInt32?_writeInt32]
  exact Option.some_ne_none n

namespace Mapped

variable {α β γ : Type}

theorem member_eq_ok_iff {enumeration : String} {all : List α} {number : α → Int32}
    (hall : ∀ a, a ∈ all) (hnodup : (all.map number).Nodup) {n : Int32} {a : α} :
    member enumeration all number n = .ok a ↔ number a = n := by
  have hsome : all.find? (fun a => number a = n) = some a ↔ number a = n := by
    constructor
    · intro h
      simpa using List.find?_some h
    · intro h
      obtain ⟨b, hb⟩ := Option.isSome_iff_exists.mp
        (List.find?_isSome (p := fun a => decide (number a = n)).mpr ⟨a, hall a, by simpa using h⟩)
      have hnumber : number b = n := by simpa using List.find?_some hb
      rw [hb, List.inj_on_of_nodup_map hnodup (hall b) (hall a) (hnumber.trans h.symm)]
  rw [member, ← hsome]
  cases all.find? (fun a => number a = n) <;> simp

theorem bind_eq_ok_iff {m : Mapped α} {k : α → Mapped β} {b : β} :
    m >>= k = .ok b ↔ ∃ a, m = .ok a ∧ k a = .ok b := by
  cases m with
  | error e => exact ⟨nofun, nofun⟩
  | ok a => exact ⟨fun h => ⟨a, rfl, h⟩, fun ⟨_, ha, h⟩ => Except.ok.inj ha ▸ h⟩

theorem option_some_eq_ok_iff {f : α → Mapped β} {a : α} {o : Option β} :
    Mapped.option f (some a) = .ok o ↔ ∃ b, f a = .ok b ∧ o = some b := by
  rw [Mapped.option]
  cases f a <;> simp [Except.map, eq_comm]

/-- If every part comes back changed in one way, so does a part that may be open. -/
theorem option_map_of_ok {f : α → Mapped β} {g : β → γ} {h : α → γ}
    (hf : ∀ a b, f a = .ok b → g b = h a) {o : Option α} {p : Option β}
    (ho : Mapped.option f o = .ok p) : p.map g = o.map h := by
  cases o with
  | none =>
    cases ho
    rfl
  | some a =>
    obtain ⟨b, hb, rfl⟩ := option_some_eq_ok_iff.mp ho
    exact congrArg some (hf a b hb)

theorem option_isOk_iff {f : α → Mapped β} {o : Option α} :
    (∃ p, Mapped.option f o = .ok p) ↔ ∀ a, o = some a → ∃ b, f a = .ok b := by
  cases o with
  | none => exact ⟨fun _ => nofun, fun _ => ⟨none, rfl⟩⟩
  | some a => simp [option_some_eq_ok_iff]

theorem Blames.exists_ok_iff {m : Mapped α} {bad : Option String} (h : m.Blames bad) :
    (∃ a, m = .ok a) ↔ bad = none := by
  cases bad with
  | none => exact iff_of_true h rfl
  | some mask =>
    rw [show m = _ from h]
    exact ⟨nofun, nofun⟩

end Mapped

theorem NodeKind.mem_all (k : NodeKind) : k ∈ all := by
  cases k <;> decide

theorem LinkKind.mem_all (k : LinkKind) : k ∈ all := by
  cases k <;> decide

theorem NodeKind.ofNumber_eq_ok_iff {n : Int32} {k : NodeKind} :
    NodeKind.ofNumber n = .ok k ↔ k.number = n :=
  Mapped.member_eq_ok_iff mem_all (by decide)

theorem LinkKind.ofNumber_eq_ok_iff {n : Int32} {k : LinkKind} :
    LinkKind.ofNumber n = .ok k ↔ k.number = n :=
  Mapped.member_eq_ok_iff mem_all (by decide)

/-- The numbers of all kinds of nodes. -/
theorem NodeKind.exists_ofNumber_iff {n : Int32} :
    (∃ k, NodeKind.ofNumber n = .ok k) ↔ n ∈ [0, 1, 3, 4, 5, 6, 7, 8, 9, 10, 11, 12, 13, 14] := by
  have hnumbers : [0, 1, 3, 4, 5, 6, 7, 8, 9, 10, 11, 12, 13, 14] = all.map number := by decide
  simp only [NodeKind.ofNumber_eq_ok_iff, hnumbers, List.mem_map, mem_all, true_and]

theorem LinkKind.exists_ofNumber_iff {n : Int32} :
    (∃ k, LinkKind.ofNumber n = .ok k) ↔ n = 0 ∨ n = 1 := by
  simp only [LinkKind.ofNumber_eq_ok_iff]
  constructor
  · rintro ⟨k, rfl⟩
    cases k <;> decide
  · rintro (rfl | rfl)
    · exact ⟨.wireless, rfl⟩
    · exact ⟨.wired, rfl⟩

/-! Out and in again -/

/-- The nearest number of 32 bits. -/
def rounded (x : Binary64) : Binary64 :=
  x.narrow.widen

theorem rounded_rounded (x : Binary64) : rounded (rounded x) = rounded x := by
  rw [rounded, rounded, Binary64.narrow_widen_narrow]

theorem map_widen_map_narrow (o : Option Binary64) :
    (o.map Binary64.narrow).map Binary32.widen = o.map rounded := by
  rw [Option.map_map]
  rfl

theorem map_map_of_idem {α : Type} {f : α → α} (hf : ∀ a, f (f a) = f a) (o : Option α) :
    (o.map f).map f = o.map f := by
  rw [Option.map_map]
  exact congrArg (o.map ·) (funext hf)

namespace Position

def normalized (p : Position) : Position :=
  { x := p.x.map rounded
    y := p.y.map rounded }

theorem ofWire_toWire (p : Position) : ofWire p.toWire = p.normalized := by
  simp only [ofWire, toWire, normalized, map_widen_map_narrow]

theorem normalized_normalized (p : Position) : p.normalized.normalized = p.normalized := by
  simp only [normalized, map_map_of_idem rounded_rounded]

end Position

namespace Node

def normalized (n : Node) : Node :=
  { n with position := n.position.map Position.normalized }

theorem ofWire_toWire (n : Node) : ofWire n.toWire = .ok n.normalized := by
  have hkind : NodeKind.ofNumber n.toWire.kind = .ok n.kind :=
    NodeKind.ofNumber_eq_ok_iff.mpr rfl
  have hposition : n.toWire.position.map Position.ofWire = n.position.map Position.normalized := by
    rw [toWire, Option.map_map]
    exact congrArg (n.position.map ·) (funext Position.ofWire_toWire)
  have hservices : SortedSet.ofList n.toWire.services = n.services :=
    SortedSet.ofList_toList n.services
  rw [ofWire, hkind, hposition, hservices]
  rfl

theorem normalized_normalized (n : Node) : n.normalized.normalized = n.normalized := by
  simp only [normalized, map_map_of_idem Position.normalized_normalized]

end Node

namespace Interface

def normalized (i : Interface) : Interface :=
  { i with ip6Mask := i.ip6Mask.map canonicalDecimal }

theorem map_maskOfWire {mask : Option String} {n : Option Int32}
    (h : Mapped.option maskToWire mask = .ok n) : n.map maskOfWire = mask.map canonicalDecimal := by
  refine Mapped.option_map_of_ok (fun text k hk => ?_) h
  exact (canonicalDecimal_eq (Mapped.int32_eq_ok_iff.mp hk)).symm

theorem ofWire_of_toWire {i : Interface} {w : Wire.Interface} (h : i.toWire = .ok w) :
    ofWire w = i.normalized := by
  obtain ⟨mask, hmask, hw⟩ := Mapped.bind_eq_ok_iff.mp h
  cases hw
  rw [ofWire, map_maskOfWire hmask]
  rfl

theorem normalized_normalized (i : Interface) : i.normalized.normalized = i.normalized := by
  simp only [normalized, map_map_of_idem canonicalDecimal_idem]

theorem badMask?_eq_none_iff {i : Interface} :
    i.badMask? = none ↔ ∀ mask, i.ip6Mask = some mask → HoldsInt32 mask := by
  simp only [badMask?, Option.filter_eq_none_iff, Option.isNone_iff_eq_none, holdsInt32_iff, ne_eq]

end Interface

namespace LinkOptions

def normalized (o : LinkOptions) : LinkOptions :=
  { o with
    bandwidth := o.bandwidth.map rounded
    burst := o.burst.map rounded
    delay := o.delay.map rounded
    jitter := o.jitter.map rounded
    dup := o.dup.map rounded
    per := o.per.map rounded
    mburst := o.mburst.map rounded
    mer := o.mer.map rounded
    unidirectional := if o.unidirectional = 1 then 1 else 0 }

theorem keyOfWire_writeInt32 (n : Int32) : keyOfWire (writeInt32 n) = .ok (some n) := by
  have hne : writeInt32 n ≠ "" := by
    intro h
    have hread := readInt32?_writeInt32 n
    rw [h] at hread
    exact absurd hread (by simp [readInt32?, readWithin?, readSigned?, readNatural?])
  rw [keyOfWire, trim_writeInt32, if_neg hne, Mapped.int32_writeInt32]
  rfl

/-- The options that come in with a key. -/
def received (o : Wire.LinkOptions) (key : Option Int32) : LinkOptions :=
  { bandwidth := o.bandwidth.map Binary32.widen
    burst := o.burst.map Binary32.widen
    delay := o.delay.map Binary32.widen
    jitter := o.jitter.map Binary32.widen
    dup := o.dup.map Binary32.widen
    per := o.per.map Binary32.widen
    mburst := o.mburst.map Binary32.widen
    mer := o.mer.map Binary32.widen
    opaqueData := o.opaqueData
    key
    unidirectional := if o.unidirectional then 1 else 0 }

theorem ofWire_eq (o : Wire.LinkOptions) :
    ofWire o = (o.key.elim (.ok none) keyOfWire).map (received o) := by
  unfold ofWire
  cases o.key with
  | none => rfl
  | some text => cases h : keyOfWire text <;> simp only [Option.elim_some, h] <;> rfl

theorem ofWire_toWire (o : LinkOptions) : ofWire o.toWire = .ok o.normalized := by
  have hkey : o.toWire.key.elim (.ok none) keyOfWire = .ok o.key := by
    rw [toWire]
    cases o.key with
    | none => rfl
    | some n => rw [Option.map_some, Option.elim_some, keyOfWire_writeInt32]
  rw [ofWire_eq, hkey, Except.map]
  simp only [received, toWire, normalized, map_widen_map_narrow, decide_eq_true_eq]

theorem normalized_normalized (o : LinkOptions) : o.normalized.normalized = o.normalized := by
  simp only [normalized, map_map_of_idem rounded_rounded]
  split <;> rfl

end LinkOptions

namespace Link

def normalized (l : Link) : Link :=
  { l with
    interfaceOne := l.interfaceOne.map Interface.normalized
    interfaceTwo := l.interfaceTwo.map Interface.normalized
    options := l.options.map LinkOptions.normalized }

theorem normalized_normalized (l : Link) : l.normalized.normalized = l.normalized := by
  simp only [normalized, map_map_of_idem Interface.normalized_normalized,
    map_map_of_idem LinkOptions.normalized_normalized]

/-- What is sent for a link whose interfaces are sent as given. -/
theorem toWire_eq_ok_iff {l : Link} {w : Wire.Link} :
    l.toWire = .ok w ↔ ∃ one two, Mapped.option Interface.toWire l.interfaceOne = .ok one ∧
      Mapped.option Interface.toWire l.interfaceTwo = .ok two ∧
      w = ⟨l.nodeOne, l.nodeTwo, l.kind.number, one, two, l.options.map LinkOptions.toWire⟩ := by
  constructor
  · intro h
    obtain ⟨one, hone, h⟩ := Mapped.bind_eq_ok_iff.mp h
    obtain ⟨two, htwo, h⟩ := Mapped.bind_eq_ok_iff.mp h
    exact ⟨one, two, hone, htwo, (Except.ok.inj h).symm⟩
  · rintro ⟨one, two, hone, htwo, rfl⟩
    exact Mapped.bind_eq_ok_iff.mpr ⟨one, hone, Mapped.bind_eq_ok_iff.mpr ⟨two, htwo, rfl⟩⟩

theorem option_ofWire_toWire (o : Option LinkOptions) :
    Mapped.option LinkOptions.ofWire (o.map LinkOptions.toWire) =
      .ok (o.map LinkOptions.normalized) := by
  cases o with
  | none => rfl
  | some o => exact Mapped.option_some_eq_ok_iff.mpr ⟨_, o.ofWire_toWire, rfl⟩

theorem ofWire_of_toWire {l : Link} {w : Wire.Link} (h : l.toWire = .ok w) :
    ofWire w = .ok l.normalized := by
  obtain ⟨one, two, hone, htwo, rfl⟩ := toWire_eq_ok_iff.mp h
  have hkind : LinkKind.ofNumber l.kind.number = .ok l.kind := LinkKind.ofNumber_eq_ok_iff.mpr rfl
  have hOne := Mapped.option_map_of_ok (fun _ _ => Interface.ofWire_of_toWire) hone
  have hTwo := Mapped.option_map_of_ok (fun _ _ => Interface.ofWire_of_toWire) htwo
  simp only [ofWire, option_ofWire_toWire, hkind, hOne, hTwo]
  rfl

theorem exists_toWire_iff {l : Link} :
    (∃ w, l.toWire = .ok w) ↔ ∀ i, l.interfaceOne = some i ∨ l.interfaceTwo = some i →
      ∀ mask, i.ip6Mask = some mask → HoldsInt32 mask := by
  rw [l.toWire_blames.exists_ok_iff, badMask?, Option.or_eq_none_iff, Option.bind_eq_none_iff,
    Option.bind_eq_none_iff]
  simp only [Interface.badMask?_eq_none_iff, or_imp, forall_and]

theorem exists_toWire_normalized {l : Link} (h : ∃ w, l.toWire = .ok w) :
    ∃ w, l.normalized.toWire = .ok w := by
  rw [exists_toWire_iff] at h ⊢
  intro i hi mask hmask
  obtain ⟨j, hj, rfl⟩ : ∃ j, (l.interfaceOne = some j ∨ l.interfaceTwo = some j) ∧
      j.normalized = i := by
    rcases hi with hi | hi <;> obtain ⟨j, hj, rfl⟩ := Option.map_eq_some_iff.mp hi
    · exact ⟨j, .inl hj, rfl⟩
    · exact ⟨j, .inr hj, rfl⟩
  obtain ⟨text, htext, rfl⟩ := Option.map_eq_some_iff.mp hmask
  exact (h j hj text htext).canonicalDecimal

end Link

/-- Sending a node or a link and taking it in again normalizes it, and does so once and for all. A
link cannot be sent exactly when a mask is no integer. -/
theorem ofWire_toWire_normalizes :
    (∀ n : Node, Node.ofWire n.toWire = .ok n.normalized ∧
      Node.ofWire n.normalized.toWire = .ok n.normalized) ∧
    ∀ l : Link,
      ((∃ e, l.toWire = .error e) ↔
        ∃ i mask, (l.interfaceOne = some i ∨ l.interfaceTwo = some i) ∧
          i.ip6Mask = some mask ∧ ¬ HoldsInt32 mask) ∧
      ∀ wire, l.toWire = .ok wire → Link.ofWire wire = .ok l.normalized ∧
        ∃ wire', l.normalized.toWire = .ok wire' ∧ Link.ofWire wire' = .ok l.normalized := by
  refine ⟨fun n => ⟨n.ofWire_toWire, ?_⟩,
    fun l => ⟨?_, fun wire h => ⟨Link.ofWire_of_toWire h, ?_⟩⟩⟩
  · have h := n.normalized.ofWire_toWire
    rwa [n.normalized_normalized] at h
  · have herror : (∃ e, l.toWire = .error e) ↔ ¬ ∃ w, l.toWire = .ok w := by
      cases l.toWire <;> simp
    rw [herror, Link.exists_toWire_iff]
    simp only [not_forall, exists_prop]
    exact ⟨fun ⟨i, hi, mask, h⟩ => ⟨i, mask, hi, h⟩, fun ⟨i, mask, hi, h⟩ => ⟨i, hi, mask, h⟩⟩
  · obtain ⟨wire', h'⟩ := Link.exists_toWire_normalized ⟨wire, h⟩
    have hback := Link.ofWire_of_toWire h'
    rw [l.normalized_normalized] at hback
    exact ⟨wire', h', hback⟩

/-- A link whose mask, bandwidth and flag are not normalized. -/
def looseLink : Link where
  nodeOne := some 1
  nodeTwo := some (-2)
  interfaceTwo := some { name := some "", ip6Mask := some " +064\t" }
  options := some { bandwidth := some ⟨0x3FB999999999999A⟩, key := some (-7), unidirectional := 2 }

theorem looseLink_normalizes :
    looseLink.normalized =
      { looseLink with
        interfaceTwo := some { name := some "", ip6Mask := some "64" }
        options := some { bandwidth := some ⟨0x3FB99999A0000000⟩, key := some (-7) } } ∧
    ∃ wire, looseLink.toWire = .ok wire ∧ Link.ofWire wire = .ok looseLink.normalized := by
  have hgood : looseLink.badMask? = none := by decide +kernel
  obtain ⟨wire, h⟩ := looseLink.toWire_blames.exists_ok_iff.mpr hgood
  exact ⟨by decide +kernel, wire, h, ((ofWire_toWire_normalizes.2 looseLink).2 wire h).1⟩

/-! In and out again -/

/-- No float of the list is a NaN. -/
def AllNumbers (xs : List (Option Binary32)) : Prop :=
  ∀ o ∈ xs, ∀ x ∈ o, x.isNaN = false

instance (xs : List (Option Binary32)) : Decidable (AllNumbers xs) :=
  inferInstanceAs (Decidable (∀ o ∈ xs, ∀ x ∈ o, x.isNaN = false))

theorem map_narrow_map_widen {o : Option Binary32} {xs : List (Option Binary32)}
    (hxs : AllNumbers xs) (ho : o ∈ xs) : (o.map Binary32.widen).map Binary64.narrow = o := by
  cases o with
  | none => rfl
  | some x => exact congrArg some (Binary32.narrow_widen (hxs _ ho x rfl))

namespace Position

/-- The coordinates on the canvas. -/
def ofCanvas (p : Wire.Position) : Wire.Position :=
  { p with z := none, latitude := none, longitude := none, altitude := none }

theorem toWire_ofWire {p : Wire.Position} (h : AllNumbers [p.x, p.y]) :
    (ofWire p).toWire = ofCanvas p := by
  simp only [toWire, ofWire, ofCanvas, map_narrow_map_widen h, List.mem_cons, true_or, or_true]

end Position

namespace Node

/-- The services come in as a set and go out in ascending order. -/
theorem toWire_of_ofWire {w : Wire.Node} {n : Node}
    (hw : ∀ p ∈ w.position, AllNumbers [p.x, p.y]) (h : ofWire w = .ok n) :
    n.toWire =
      { w with
        services := SortedSet.toList (SortedSet.ofList w.services)
        position := w.position.map Position.ofCanvas } := by
  obtain ⟨kind, hkind, h⟩ := Mapped.bind_eq_ok_iff.mp h
  obtain rfl := Except.ok.inj h
  have hposition : (w.position.map Position.ofWire).map Position.toWire =
      w.position.map Position.ofCanvas := by
    rw [Option.map_map]
    exact Option.map_congr fun p hp => Position.toWire_ofWire (hw p hp)
  rw [toWire, NodeKind.ofNumber_eq_ok_iff.mp hkind, hposition]

theorem exists_ofWire_iff {w : Wire.Node} :
    (∃ n, ofWire w = .ok n) ↔ ∃ k, NodeKind.ofNumber w.kind = .ok k := by
  constructor
  · rintro ⟨n, h⟩
    obtain ⟨k, hk, -⟩ := Mapped.bind_eq_ok_iff.mp h
    exact ⟨k, hk⟩
  · rintro ⟨k, hk⟩
    exact ⟨_, Mapped.bind_eq_ok_iff.mpr ⟨k, hk, rfl⟩⟩

end Node

theorem Interface.toWire_ofWire (w : Wire.Interface) : (ofWire w).toWire = .ok w := by
  have hmask : Mapped.option maskToWire (w.ip6Mask.map maskOfWire) = .ok w.ip6Mask := by
    cases w.ip6Mask with
    | none => rfl
    | some n =>
      exact Mapped.option_some_eq_ok_iff.mpr ⟨n, Mapped.int32_writeInt32 "ip6_mask" n, rfl⟩
  rw [toWire, ofWire, hmask]
  rfl

namespace LinkOptions

/-- The key in canonical decimal, or open when it is blank. -/
def canonicalKey (text : String) : Option String :=
  if trim text = "" then none else some (canonicalDecimal text)

def canonical (o : Wire.LinkOptions) : Wire.LinkOptions :=
  { o with key := o.key.bind canonicalKey }

theorem keyOfWire_eq_ok_iff {text : String} {key : Option Int32} :
    keyOfWire text = .ok key ↔
      trim text = "" ∧ key = none ∨
      trim text ≠ "" ∧ ∃ n, key = some n ∧ IsDecimal (trim text).toList n.toInt := by
  rw [keyOfWire]
  split
  · rename_i hblank
    simp [hblank, eq_comm]
  · rename_i hblank
    have hread : ∀ n, Mapped.int32 "key" (trim text) = .ok n ↔
        IsDecimal (trim text).toList n.toInt := by
      intro n
      rw [Mapped.int32_eq_ok_iff, trim_trim]
    simp only [hblank, false_and, false_or, ne_eq, not_false_eq_true, true_and, ← hread]
    cases Mapped.int32 "key" (trim text) <;> simp [Except.map, eq_comm]

theorem map_writeInt32_of_keyOfWire {text : String} {key : Option Int32}
    (h : keyOfWire text = .ok key) : key.map writeInt32 = canonicalKey text := by
  rw [canonicalKey]
  rcases keyOfWire_eq_ok_iff.mp h with ⟨hblank, rfl⟩ | ⟨hblank, n, rfl, hn⟩
  · rw [if_pos hblank]
    rfl
  · rw [if_neg hblank, canonicalDecimal_eq hn]
    rfl

theorem exists_keyOfWire_iff {text : String} :
    (∃ key, keyOfWire text = .ok key) ↔ trim text = "" ∨ HoldsInt32 text := by
  simp only [keyOfWire_eq_ok_iff, HoldsInt32]
  constructor
  · rintro ⟨key, ⟨hblank, -⟩ | ⟨-, n, -, hn⟩⟩
    · exact .inl hblank
    · exact .inr ⟨n, hn⟩
  · intro h
    by_cases hblank : trim text = ""
    · exact ⟨none, .inl ⟨hblank, rfl⟩⟩
    · obtain ⟨n, hn⟩ := h.resolve_left hblank
      exact ⟨some n, .inr ⟨hblank, n, rfl, hn⟩⟩

/-- All numbers of the options. -/
def numbers (o : Wire.LinkOptions) : List (Option Binary32) :=
  [o.jitter, o.mburst, o.mer, o.per, o.bandwidth, o.burst, o.delay, o.dup]

theorem toWire_received {o : Wire.LinkOptions} (h : AllNumbers (numbers o)) (key : Option Int32) :
    (received o key).toWire = { o with key := key.map writeInt32 } := by
  have hback : ∀ x ∈ numbers o, (x.map Binary32.widen).map Binary64.narrow = x :=
    fun _ hx => map_narrow_map_widen h hx
  simp only [numbers, List.forall_mem_cons] at hback
  cases hflag : o.unidirectional <;> simp [toWire, received, hback, hflag]

theorem ofWire_eq_ok_iff {w : Wire.LinkOptions} {o : LinkOptions} :
    ofWire w = .ok o ↔ ∃ key, w.key.elim (.ok none) keyOfWire = .ok key ∧ received w key = o := by
  rw [ofWire_eq]
  cases w.key.elim (.ok none) keyOfWire <;> simp [Except.map]

theorem toWire_of_ofWire {w : Wire.LinkOptions} {o : LinkOptions} (hw : AllNumbers (numbers w))
    (h : ofWire w = .ok o) : o.toWire = canonical w := by
  obtain ⟨key, hkey, rfl⟩ := ofWire_eq_ok_iff.mp h
  have hcanonical : key.map writeInt32 = w.key.bind canonicalKey := by
    cases htext : w.key with
    | none =>
      rw [htext] at hkey
      cases hkey
      rfl
    | some text =>
      rw [htext, Option.elim_some] at hkey
      rw [map_writeInt32_of_keyOfWire hkey, Option.bind_some]
  rw [toWire_received hw, hcanonical, canonical]

theorem exists_ofWire_iff {w : Wire.LinkOptions} :
    (∃ o, ofWire w = .ok o) ↔ ∀ text, w.key = some text → trim text = "" ∨ HoldsInt32 text := by
  have hkey : (∃ o, ofWire w = .ok o) ↔ ∃ key, w.key.elim (.ok none) keyOfWire = .ok key := by
    simp only [ofWire_eq_ok_iff]
    exact ⟨fun ⟨_, key, h, _⟩ => ⟨key, h⟩, fun ⟨key, h⟩ => ⟨_, key, h, rfl⟩⟩
  rw [hkey]
  cases w.key with
  | none => simp
  | some text => simp [exists_keyOfWire_iff]

end LinkOptions

namespace Link

theorem ofWire_eq_ok_iff {w : Wire.Link} {l : Link} :
    ofWire w = .ok l ↔ ∃ options kind, Mapped.option LinkOptions.ofWire w.options = .ok options ∧
      LinkKind.ofNumber w.kind = .ok kind ∧
      l = ⟨w.nodeOne, w.nodeTwo, w.interfaceOne.map Interface.ofWire,
        w.interfaceTwo.map Interface.ofWire, options, kind⟩ := by
  constructor
  · intro h
    obtain ⟨options, hoptions, h⟩ := Mapped.bind_eq_ok_iff.mp h
    obtain ⟨kind, hkind, h⟩ := Mapped.bind_eq_ok_iff.mp h
    exact ⟨options, kind, hoptions, hkind, (Except.ok.inj h).symm⟩
  · rintro ⟨options, kind, hoptions, hkind, rfl⟩
    exact Mapped.bind_eq_ok_iff.mpr
      ⟨options, hoptions, Mapped.bind_eq_ok_iff.mpr ⟨kind, hkind, rfl⟩⟩

theorem exists_ofWire_iff {w : Wire.Link} :
    (∃ l, ofWire w = .ok l) ↔ (w.kind = 0 ∨ w.kind = 1) ∧
      ∀ o text, w.options = some o → o.key = some text → trim text = "" ∨ HoldsInt32 text := by
  have hparts : (∃ l, ofWire w = .ok l) ↔ (∃ kind, LinkKind.ofNumber w.kind = .ok kind) ∧
      ∃ options, Mapped.option LinkOptions.ofWire w.options = .ok options := by
    simp only [ofWire_eq_ok_iff]
    exact ⟨fun ⟨_, options, kind, ho, hk, _⟩ => ⟨⟨kind, hk⟩, options, ho⟩,
      fun ⟨⟨kind, hk⟩, options, ho⟩ => ⟨_, options, kind, ho, hk, rfl⟩⟩
  rw [hparts, LinkKind.exists_ofNumber_iff, Mapped.option_isOk_iff]
  simp only [LinkOptions.exists_ofWire_iff]
  exact and_congr_right fun _ => ⟨fun h o text ho => h o ho text, fun h o ho text => h o text ho⟩

theorem toWire_of_ofWire {w : Wire.Link} {l : Link}
    (hw : ∀ o ∈ w.options, AllNumbers (LinkOptions.numbers o)) (h : ofWire w = .ok l) :
    l.toWire = .ok { w with options := w.options.map LinkOptions.canonical } := by
  obtain ⟨options, kind, hoptions, hkind, rfl⟩ := ofWire_eq_ok_iff.mp h
  have hinterface : ∀ o : Option Wire.Interface,
      Mapped.option Interface.toWire (o.map Interface.ofWire) = .ok o := by
    intro o
    cases o with
    | none => rfl
    | some i => exact Mapped.option_some_eq_ok_iff.mpr ⟨i, Interface.toWire_ofWire i, rfl⟩
  have hback : options.map LinkOptions.toWire = w.options.map LinkOptions.canonical := by
    cases hsome : w.options with
    | none =>
      rw [hsome] at hoptions
      cases hoptions
      rfl
    | some o =>
      rw [hsome] at hoptions
      obtain ⟨p, hp, rfl⟩ := Mapped.option_some_eq_ok_iff.mp hoptions
      exact congrArg some (LinkOptions.toWire_of_ofWire (hw o hsome) hp)
  rw [toWire_eq_ok_iff]
  refine ⟨w.interfaceOne, w.interfaceTwo, hinterface _, hinterface _, ?_⟩
  rw [hback, LinkKind.ofNumber_eq_ok_iff.mp hkind]

end Link

/-- A node or link is taken in exactly when its numbers have a meaning, and when it is sent again
only the order of its services, its coordinates off the canvas and the notation of its key are
lost. -/
theorem toWire_ofWire_canonical :
    (∀ w : Wire.Node,
      ((∃ n, Node.ofWire w = .ok n) ↔
        w.kind ∈ [0, 1, 3, 4, 5, 6, 7, 8, 9, 10, 11, 12, 13, 14]) ∧
      ((∀ p ∈ w.position, AllNumbers [p.x, p.y]) →
        ∀ n, Node.ofWire w = .ok n → ∃ services : List String,
          services.Pairwise (fun a b => Bytes.ofText a < Bytes.ofText b) ∧
          (∀ s, s ∈ services ↔ s ∈ w.services) ∧
          n.toWire = { w with services, position := w.position.map Position.ofCanvas })) ∧
    ∀ w : Wire.Link,
      ((∃ l, Link.ofWire w = .ok l) ↔ (w.kind = 0 ∨ w.kind = 1) ∧
        ∀ o text, w.options = some o → o.key = some text → trim text = "" ∨ HoldsInt32 text) ∧
      ((∀ o ∈ w.options, AllNumbers (LinkOptions.numbers o)) →
        ∀ l, Link.ofWire w = .ok l →
          l.toWire = .ok { w with options := w.options.map LinkOptions.canonical }) := by
  refine ⟨fun w => ⟨?_, fun hw n h => ?_⟩,
    fun w => ⟨Link.exists_ofWire_iff, fun hw l h => Link.toWire_of_ofWire hw h⟩⟩
  · rw [Node.exists_ofWire_iff, NodeKind.exists_ofNumber_iff]
  · refine ⟨SortedSet.toList (SortedSet.ofList w.services), ?_,
      fun s => SortedSet.mem_toList_ofList, Node.toWire_of_ofWire hw h⟩
    exact (SortedSet.toList_pairwise _).imp Bytes.ofText_lt_of_compare

/-- A node with a repeated service and a height. -/
def raisedNode : Wire.Node where
  id := none
  name := some "wlan"
  kind := 6
  model := none
  position := some ⟨some ⟨0x3F800000⟩, none, some ⟨0xC0000000⟩, none, none, none⟩
  services := ["zebra", "ospf", "zebra"]
  emane := none
  icon := none

/-- A link with blanks and a sign in its key. -/
def keyedLink : Wire.Link where
  nodeOne := some 1
  nodeTwo := none
  kind := 0
  interfaceOne := none
  interfaceTwo := none
  options := some
    { opaqueData := none, jitter := some ⟨0x00000001⟩, key := some "\n+07 ", mburst := none,
      mer := none, per := none, bandwidth := none, burst := some ⟨0xFF800000⟩, delay := none,
      dup := none, unidirectional := true }

theorem raisedNode_keyedLink_canonical :
    (∃ n services, Node.ofWire raisedNode = .ok n ∧
      services.Pairwise (fun a b => Bytes.ofText a < Bytes.ofText b) ∧
      (∀ s, s ∈ services ↔ s ∈ ["zebra", "ospf", "zebra"]) ∧
      n.toWire =
        { raisedNode with
          services
          position := some ⟨some ⟨0x3F800000⟩, none, none, none, none, none⟩ }) ∧
    ∃ l, Link.ofWire keyedLink = .ok l ∧
      l.toWire = .ok
        { keyedLink with
          options := keyedLink.options.map fun o => { o with key := some "7" } } := by
  obtain ⟨hnode, hlink⟩ := toWire_ofWire_canonical
  constructor
  · obtain ⟨n, hn⟩ := (hnode raisedNode).1.mpr (by decide)
    obtain ⟨services, h⟩ := (hnode raisedNode).2 (by decide +kernel) n hn
    exact ⟨n, services, hn, h⟩
  · have hkey : ∀ o text, keyedLink.options = some o → o.key = some text →
        trim text = "" ∨ HoldsInt32 text := by
      rintro o text ho htext
      cases ho
      cases htext
      exact .inr (holdsInt32_iff.mpr (by decide +kernel))
    obtain ⟨l, hl⟩ := (hlink keyedLink).1.mpr ⟨by decide, hkey⟩
    refine ⟨l, hl, ?_⟩
    rw [(hlink keyedLink).2 (by decide +kernel) l hl]
    decide +kernel

end EmuControl
