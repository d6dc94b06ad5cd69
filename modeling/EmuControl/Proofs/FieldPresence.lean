import EmuControl.Proofs.TopologyMapping
import EmuControl.Proofs.WireRecord
import Mathlib.Data.List.Forall2

/-!
# Which fields stand in the bytes

An optional field of a node or a link has a record in the encoding exactly when it is set, whatever
it is set to: zero, an empty text or a part in which nothing is set. Besides these there is a record
for each service, one for a kind that is not zero, and one for a link that is marked as
unidirectional.

Bytes are looked at without any schema. That is possible because no encoded record is the beginning
of another one, so bytes are records in one way at most (`Record.encodeAll_injective`). `Outlined`
lists the records of some bytes by their tags, and `Holds` says that there is a record at a place,
inside of records where the place has several tags.
-/
namespace EmuControl.Wire

namespace Varint

theorem encode_append_inj {m n : Nat} {as bs : Bytes} (h : encode m ++ as = encode n ++ bs) :
    m = n ∧ as = bs := by
  induction m using Nat.strong_induction_on generalizing n with
  | _ m ih =>
    have hlow : ∀ k < 128, (UInt8.ofNat k).toNat = k := fun k hk => toNat_octet (by omega)
    have hhigh : ∀ k, (UInt8.ofNat (k % 128 + 128)).toNat = k % 128 + 128 :=
      fun k => toNat_octet (by omega)
    rw [encode.eq_1 m, encode.eq_1 n] at h
    split at h <;> split at h <;> obtain ⟨hhead, htail⟩ := List.cons.inj h <;>
      have hnat := congrArg UInt8.toNat hhead
    · rw [hlow m ‹_›, hlow n ‹_›] at hnat
      exact ⟨hnat, htail⟩
    · rw [hlow m ‹_›, hhigh n] at hnat
      omega
    · rw [hhigh m, hlow n ‹_›] at hnat
      omega
    · rw [hhigh m, hhigh n] at hnat
      obtain ⟨hquotient, hrest⟩ := ih (m / 128) (by omega) htail
      exact ⟨by omega, hrest⟩

end Varint

theorem Key.encode_append_inj {k l : Key} (hk : k.wireType < 8) (hl : l.wireType < 8)
    {as bs : Bytes} (h : k.encode ++ as = l.encode ++ bs) : k = l ∧ as = bs := by
  obtain ⟨hnumber, hrest⟩ := Varint.encode_append_inj h
  obtain ⟨tag, wireType⟩ := k
  obtain ⟨tag', wireType'⟩ := l
  refine ⟨?_, hrest⟩
  simp only [Key.mk.injEq] at hk hl hnumber ⊢
  omega

theorem littleEndian_append_inj {width m n : Nat} (hm : m < 256 ^ width) (hn : n < 256 ^ width)
    {as bs : Bytes} (h : littleEndian width m ++ as = littleEndian width n ++ bs) :
    m = n ∧ as = bs := by
  have hlength : (littleEndian width m).length = (littleEndian width n).length := by
    rw [length_littleEndian, length_littleEndian]
  obtain ⟨hoctets, hrest⟩ := List.append_inj h hlength
  refine ⟨?_, hrest⟩
  rw [← ofLittleEndian_littleEndian width hm, hoctets, ofLittleEndian_littleEndian width hn]

namespace Payload

def wireType : Payload → Nat
  | varint _ => 0
  | fixed64 _ => 1
  | delimited _ => 2
  | group => 3
  | fixed32 _ => 5

/-- What follows the key of a record with that tag. -/
def encode (tag : Nat) : Payload → Bytes
  | varint n => Varint.encode n.toNat
  | fixed64 n => littleEndian 8 n.toNat
  | delimited bytes => Varint.encode bytes.length ++ bytes
  | group => Key.encode ⟨tag, 4⟩
  | fixed32 n => littleEndian 4 n.toNat

theorem wireType_lt (p : Payload) : p.wireType < 8 := by
  cases p <;> simp [wireType]

theorem encode_append_inj {tag : Nat} {p q : Payload} (htype : p.wireType = q.wireType)
    {as bs : Bytes} (h : p.encode tag ++ as = q.encode tag ++ bs) : p = q ∧ as = bs := by
  cases p <;> cases q <;> try cases htype
  case varint m n =>
    obtain ⟨hnat, hrest⟩ := Varint.encode_append_inj h
    exact ⟨congrArg varint (UInt64.toNat_inj.mp hnat), hrest⟩
  case fixed64 m n =>
    obtain ⟨hnat, hrest⟩ := littleEndian_append_inj m.toNat_lt n.toNat_lt h
    exact ⟨congrArg fixed64 (UInt64.toNat_inj.mp hnat), hrest⟩
  case delimited as' bs' =>
    simp only [encode, List.append_assoc] at h
    obtain ⟨hlength, hrest⟩ := Varint.encode_append_inj h
    obtain ⟨hbytes, hrest⟩ := List.append_inj hrest hlength
    exact ⟨congrArg delimited hbytes, hrest⟩
  case group => exact ⟨rfl, List.append_cancel_left h⟩
  case fixed32 m n =>
    obtain ⟨hnat, hrest⟩ := littleEndian_append_inj m.toNat_lt n.toNat_lt h
    exact ⟨congrArg fixed32 (UInt32.toNat_inj.mp hnat), hrest⟩

/-- The bytes inside a payload that has some. -/
def body : Payload → Bytes
  | delimited bytes => bytes
  | _ => []

end Payload

namespace Record

theorem encode_eq (r : Record) :
    r.encode = Key.encode ⟨r.tag, r.payload.wireType⟩ ++ r.payload.encode r.tag := by
  obtain ⟨tag, payload⟩ := r
  cases payload <;> simp [encode, Payload.wireType, Payload.encode]

theorem encode_append_inj {r r' : Record} {as bs : Bytes} (h : r.encode ++ as = r'.encode ++ bs) :
    r = r' ∧ as = bs := by
  rw [encode_eq, encode_eq, List.append_assoc, List.append_assoc] at h
  obtain ⟨hkey, hrest⟩ :=
    Key.encode_append_inj (Payload.wireType_lt r.payload) (Payload.wireType_lt r'.payload) h
  obtain ⟨tag, payload⟩ := r
  obtain ⟨tag', payload'⟩ := r'
  simp only [Key.mk.injEq] at hkey
  obtain ⟨rfl, htype⟩ := hkey
  obtain ⟨rfl, heq⟩ := Payload.encode_append_inj htype hrest
  exact ⟨rfl, heq⟩

/-- Bytes are records in one way at most. -/
theorem encodeAll_injective : Function.Injective encodeAll := by
  intro rs
  induction rs with
  | nil =>
    intro rs' h
    cases rs' with
    | nil => rfl
    | cons r' rs' => exact absurd (List.append_eq_nil_iff.mp h.symm).1 r'.encode_ne_nil
  | cons r rs ih =>
    intro rs' h
    cases rs' with
    | nil => exact absurd (List.append_eq_nil_iff.mp h).1 r.encode_ne_nil
    | cons r' rs' =>
      obtain ⟨rfl, hrest⟩ := encode_append_inj h
      rw [ih hrest]

end Record

/-- There is a record with the first tag in the bytes, and one at the rest of the place in that. -/
def Holds : (place : List Nat) → Bytes → Prop
  | [], _ => True
  | tag :: inner, bytes =>
    ∃ rs, bytes = Record.encodeAll rs ∧ ∃ r ∈ rs, r.tag = tag ∧ Holds inner r.payload.body

theorem holds_encodeAll_iff {rs : List Record} {tag : Nat} {inner : List Nat} :
    Holds (tag :: inner) (Record.encodeAll rs) ↔
      ∃ r ∈ rs, r.tag = tag ∧ Holds inner r.payload.body := by
  constructor
  · rintro ⟨rs', heq, h⟩
    rwa [Record.encodeAll_injective heq]
  · intro h
    exact ⟨rs, rfl, h⟩

/-- A record from outside: its tag, and the tags inside if it is a message. -/
structure Mark where
  tag : Nat
  inner : Option (List Nat) := none
  deriving DecidableEq, Repr

/-- The record is as the mark says. -/
def Record.Shows (r : Record) (m : Mark) : Prop :=
  r.tag = m.tag ∧ ∀ tags ∈ m.inner, ∃ rs, r.payload = .delimited (Record.encodeAll rs) ∧
    rs.map Record.tag = tags

/-- The bytes are records as the marks say, one for each mark and in the same order. -/
def Outlined (bytes : Bytes) (marks : List Mark) : Prop :=
  ∃ rs, bytes = Record.encodeAll rs ∧ List.Forall₂ Record.Shows rs marks

/-- The tags of those fields that are set. -/
def tagged (fields : List (Nat × Bool)) : List Nat :=
  (fields.filter (·.2)).map (·.1)

@[simp] theorem tagged_nil : tagged [] = [] :=
  rfl

@[simp] theorem tagged_cons (tag : Nat) (set : Bool) (fields : List (Nat × Bool)) :
    tagged ((tag, set) :: fields) = (if set then [tag] else []) ++ tagged fields := by
  cases set <;> rfl

/-- Where each field has a tag of its own, its tag is there exactly when the field is set. -/
theorem mem_tagged_iff {fields : List (Nat × Bool)} (hdistinct : (fields.map (·.1)).Nodup)
    {f : Nat × Bool} (hf : f ∈ fields) : f.1 ∈ tagged fields ↔ f.2 = true := by
  simp only [tagged, List.mem_map, List.mem_filter]
  constructor
  · rintro ⟨g, ⟨hg, hset⟩, htag⟩
    rwa [List.inj_on_of_nodup_map hdistinct hg hf htag] at hset
  · intro hset
    exact ⟨f, ⟨hf, hset⟩, rfl⟩

/-- At that place in the bytes there are records for those of the fields that are set. -/
def Reflects (bytes : Bytes) (place : List Nat) (fields : List (Nat × Bool)) : Prop :=
  ∀ f ∈ fields, Holds (place ++ [f.1]) bytes ↔ f.2 = true

theorem exists_congr_of_forall₂ {α β : Type} {R : α → β → Prop} {p : α → Prop} {q : β → Prop}
    {as : List α} {bs : List β} (h : List.Forall₂ R as bs)
    (hpq : ∀ a, ∀ b ∈ bs, R a b → (p a ↔ q b)) : (∃ a ∈ as, p a) ↔ ∃ b ∈ bs, q b := by
  induction h with
  | nil => simp
  | @cons a b as bs hab _ ih =>
    have hhead := hpq a b List.mem_cons_self hab
    have hrest := ih fun a b hb => hpq a b (List.mem_cons_of_mem _ hb)
    rw [List.exists_mem_cons_iff, hhead, hrest, List.exists_mem_cons_iff]

namespace Outlined

variable {bytes : Bytes} {marks : List Mark}

theorem holds_iff (h : Outlined bytes marks) (tag : Nat) :
    Holds [tag] bytes ↔ ∃ m ∈ marks, m.tag = tag := by
  obtain ⟨rs, rfl, hshows⟩ := h
  rw [holds_encodeAll_iff]
  apply exists_congr_of_forall₂ hshows
  intro r m _ hrm
  rw [hrm.1, Holds, and_true]

/-- Inside of a record, when there is one with that tag and all of these have the same fields. -/
theorem reflects_inner (h : Outlined bytes marks) {tag : Nat} {fields : List (Nat × Bool)}
    (hdistinct : (fields.map (·.1)).Nodup) (hmark : ∃ m ∈ marks, m.tag = tag)
    (hinner : ∀ m ∈ marks, m.tag = tag → m.inner = some (tagged fields)) :
    Reflects bytes [tag] fields := by
  intro f hf
  obtain ⟨rs, rfl, hshows⟩ := h
  have hinside : ∀ r : Record, ∀ m ∈ marks, r.Shows m →
      ((r.tag = tag ∧ Holds [f.1] r.payload.body) ↔ m.tag = tag ∧ f.2 = true) := by
    intro r m hm hrm
    obtain ⟨htag, htags⟩ := hrm
    rw [htag]
    refine and_congr_right fun heq => ?_
    obtain ⟨inner, hpayload, hfields⟩ := htags _ (hinner m hm heq)
    rw [hpayload, Payload.body, holds_encodeAll_iff, ← mem_tagged_iff hdistinct hf, ← hfields]
    simp [Holds]
  rw [List.singleton_append, holds_encodeAll_iff, exists_congr_of_forall₂ hshows hinside]
  obtain ⟨m, hm, htag⟩ := hmark
  exact ⟨fun ⟨_, _, _, hset⟩ => hset, fun hset => ⟨m, hm, htag, hset⟩⟩

end Outlined

/-! The records that a schema writes -/

namespace Schema

@[simp] theorem map_tag_optional (tag : Nat) (kind : Scalar) (v : Option kind.Value) :
    (scalarRecords tag kind .optional v).map Record.tag = if v.isSome then [tag] else [] := by
  cases v <;> rfl

@[simp] theorem map_tag_always (tag : Nat) (kind : Scalar) (v : kind.Value) :
    (scalarRecords tag kind .always v).map Record.tag = if kind.isDefault v then [] else [tag] := by
  rw [scalarRecords]
  split <;> rfl

end Schema

/-- The mark of a plain field, if it is set. -/
def plainMark (tag : Nat) (set : Bool) : List Mark :=
  if set then [{ tag }] else []

/-- The mark of a message, if there is one. -/
def messageMark {α : Type} (tag : Nat) (tags : α → List Nat) (part : Option α) : List Mark :=
  part.toList.map fun a => { tag, inner := some (tags a) }

@[simp] theorem mem_plainMark {tag : Nat} {set : Bool} {m : Mark} :
    m ∈ plainMark tag set ↔ set = true ∧ m = { tag } := by
  cases set <;> simp [plainMark]

@[simp] theorem mem_messageMark {α : Type} {tag : Nat} {tags : α → List Nat} {part : Option α}
    {m : Mark} : m ∈ messageMark tag tags part ↔
      ∃ a, part = some a ∧ { tag, inner := some (tags a) } = m := by
  simp [messageMark]

theorem shows_plain {rs : List Record} {tag : Nat} {set : Bool}
    (h : rs.map Record.tag = if set then [tag] else []) :
    List.Forall₂ Record.Shows rs (plainMark tag set) := by
  cases set with
  | false =>
    rw [List.map_eq_nil_iff.mp h]
    exact .nil
  | true =>
    obtain ⟨r, rfl, rfl⟩ := List.map_eq_singleton_iff.mp h
    exact .cons ⟨rfl, by simp⟩ .nil

theorem shows_repeated (tag : Nat) (kind : Scalar) (vs : List kind.Value) :
    List.Forall₂ Record.Shows (Schema.scalarRecords tag kind .repeated vs)
      (List.replicate vs.length { tag }) := by
  induction vs with
  | nil => exact .nil
  | cons v vs ih => exact .cons ⟨rfl, by simp⟩ ih

theorem shows_message {α : Type} {tag : Nat} {body : Schema} {v : Option body.Value}
    {tags : α → List Nat} {part : Option α}
    (h : (v.map fun m => (body.records m).map Record.tag) = part.map tags) :
    List.Forall₂ Record.Shows
      (v.toList.map fun m => ⟨tag, .delimited (Record.encodeAll (body.records m))⟩)
      (messageMark tag tags part) := by
  cases v with
  | none =>
    rw [Option.map_eq_none_iff.mp h.symm]
    exact .nil
  | some m =>
    obtain ⟨a, rfl, ha⟩ := Option.map_eq_some_iff.mp h.symm
    refine .cons ⟨rfl, ?_⟩ .nil
    rintro _ ⟨⟩
    exact ⟨_, rfl, ha.symm⟩

end EmuControl.Wire

namespace EmuControl

open Wire

/-! Each optional field with its tag, and whether it is set -/

def Position.optionals (p : Position) : List (Nat × Bool) :=
  [(1, p.x.isSome), (2, p.y.isSome)]

def Interface.optionals (i : Interface) : List (Nat × Bool) :=
  [(1, i.id.isSome), (2, i.name.isSome), (3, i.mac.isSome), (4, i.ip4.isSome),
    (5, i.ip4Mask.isSome), (6, i.ip6.isSome), (7, i.ip6Mask.isSome)]

def LinkOptions.optionals (o : LinkOptions) : List (Nat × Bool) :=
  [(1, o.opaqueData.isSome), (2, o.jitter.isSome), (3, o.key.isSome), (4, o.mburst.isSome),
    (5, o.mer.isSome), (6, o.per.isSome), (7, o.bandwidth.isSome), (8, o.burst.isSome),
    (9, o.delay.isSome), (10, o.dup.isSome)]

def Node.optionals (n : Node) : List (Nat × Bool) :=
  [(1, n.id.isSome), (2, n.name.isSome), (4, n.model.isSome), (5, n.position.isSome),
    (7, n.emane.isSome), (8, n.icon.isSome)]

def Link.optionals (l : Link) : List (Nat × Bool) :=
  [(1, l.nodeOne.isSome), (2, l.nodeTwo.isSome), (4, l.interfaceOne.isSome),
    (5, l.interfaceTwo.isSome), (6, l.options.isSome)]

/-- The tags of the records that link options are written as. -/
def LinkOptions.tags (o : LinkOptions) : List Nat :=
  tagged (o.optionals ++ [(11, decide (o.unidirectional = 1))])

/-- The records that a node is written as. -/
def Node.outline (n : Node) : List Mark :=
  List.flatten [plainMark 1 n.id.isSome, plainMark 2 n.name.isSome, plainMark 3 (n.kind.number ≠ 0),
    plainMark 4 n.model.isSome, messageMark 5 (fun p => tagged p.optionals) n.position,
    List.replicate (SortedSet.toList n.services).length { tag := 6 }, plainMark 7 n.emane.isSome,
    plainMark 8 n.icon.isSome]

/-- The records that a link is written as. -/
def Link.outline (l : Link) : List Mark :=
  List.flatten [plainMark 1 l.nodeOne.isSome, plainMark 2 l.nodeTwo.isSome,
    plainMark 3 (l.kind.number ≠ 0), messageMark 4 (fun i => tagged i.optionals) l.interfaceOne,
    messageMark 5 (fun i => tagged i.optionals) l.interfaceTwo,
    messageMark 6 LinkOptions.tags l.options]

theorem Position.map_tag (p : Position) :
    ((Message.schema Wire.Position).records (Message.fields p.toWire)).map Record.tag =
      tagged p.optionals := by
  simp [Message.schema, Message.fields, Schema.records, toWire, optionals]

theorem LinkOptions.map_tag (o : LinkOptions) :
    ((Message.schema Wire.LinkOptions).records (Message.fields o.toWire)).map Record.tag =
      o.tags := by
  simp [Message.schema, Message.fields, Schema.records, toWire, tags, optionals, Scalar.isDefault]

theorem Interface.map_tag {i : Interface} {w : Wire.Interface} (h : i.toWire = .ok w) :
    ((Message.schema Wire.Interface).records (Message.fields w)).map Record.tag =
      tagged i.optionals := by
  obtain ⟨mask, hmask, hw⟩ := Mapped.bind_eq_ok_iff.mp h
  have hset : mask.map (fun _ => ()) = i.ip6Mask.map (fun _ => ()) :=
    Mapped.option_map_of_ok (fun _ _ _ => rfl) hmask
  have hset : mask.isSome = i.ip6Mask.isSome := by
    simpa using congrArg Option.isSome hset
  cases hw
  simp [Message.schema, Message.fields, Schema.records, optionals, hset]

theorem Node.outlined (n : Node) : Outlined (Message.encode n.toWire) n.outline := by
  refine ⟨_, rfl, ?_⟩
  have hposition : ((n.toWire.position.map Message.fields).map fun m =>
      ((Message.schema Wire.Position).records m).map Record.tag) =
        n.position.map fun p => tagged p.optionals := by
    simp [toWire, Function.comp_def, Position.map_tag]
  refine List.rel_append (shows_plain (by simp [toWire])) ?_
  refine List.rel_append (shows_plain (by simp [toWire])) ?_
  refine List.rel_append (shows_plain (by simp [toWire, Scalar.isDefault])) ?_
  refine List.rel_append (shows_plain (by simp [toWire])) ?_
  refine List.rel_append (shows_message hposition) ?_
  refine List.rel_append (shows_repeated _ _ _) ?_
  refine List.rel_append (shows_plain (by simp [toWire])) ?_
  exact List.rel_append (shows_plain (by simp [toWire])) .nil

theorem Link.outlined {l : Link} {w : Wire.Link} (h : l.toWire = .ok w) :
    Outlined (Message.encode w) l.outline := by
  obtain ⟨one, two, hone, htwo, rfl⟩ := toWire_eq_ok_iff.mp h
  refine ⟨_, rfl, ?_⟩
  have hOne := Mapped.option_map_of_ok (fun _ _ => Interface.map_tag) hone
  have hTwo := Mapped.option_map_of_ok (fun _ _ => Interface.map_tag) htwo
  refine List.rel_append (shows_plain (by simp)) ?_
  refine List.rel_append (shows_plain (by simp)) ?_
  refine List.rel_append (shows_plain (by simp [Scalar.isDefault])) ?_
  refine List.rel_append (shows_message (by simpa [Function.comp_def] using hOne)) ?_
  refine List.rel_append (shows_message (by simpa [Function.comp_def] using hTwo)) ?_
  refine List.rel_append (shows_message ?_) .nil
  simp [Function.comp_def, LinkOptions.map_tag]

theorem Node.reflects (n : Node) : Reflects (Message.encode n.toWire) [] n.optionals := by
  intro f hf
  rw [List.nil_append, n.outlined.holds_iff]
  simp only [optionals, List.mem_cons, List.not_mem_nil, or_false] at hf
  rcases hf with rfl | rfl | rfl | rfl | rfl | rfl <;>
    simp [outline, or_and_right, exists_or, Option.isSome_iff_exists]

theorem Node.reflects_position {n : Node} {p : Position} (hp : n.position = some p) :
    Reflects (Message.encode n.toWire) [5] p.optionals := by
  apply n.outlined.reflects_inner
  · simp [Position.optionals]
  · simp [outline, hp, or_and_right, exists_or]
  · simp [outline, hp, or_imp, forall_and]

namespace Link

variable {l : Link} {w : Wire.Link} (h : l.toWire = .ok w)
include h

theorem reflects : Reflects (Message.encode w) [] l.optionals := by
  intro f hf
  rw [List.nil_append, (outlined h).holds_iff]
  simp only [optionals, List.mem_cons, List.not_mem_nil, or_false] at hf
  rcases hf with rfl | rfl | rfl | rfl | rfl <;>
    simp [outline, or_and_right, exists_or, Option.isSome_iff_exists]

theorem reflects_interfaceOne {i : Interface} (hi : l.interfaceOne = some i) :
    Reflects (Message.encode w) [4] i.optionals := by
  apply (outlined h).reflects_inner
  · simp [Interface.optionals]
  · simp [outline, hi, or_and_right, exists_or]
  · simp [outline, hi, or_imp, forall_and]

theorem reflects_interfaceTwo {i : Interface} (hi : l.interfaceTwo = some i) :
    Reflects (Message.encode w) [5] i.optionals := by
  apply (outlined h).reflects_inner
  · simp [Interface.optionals]
  · simp [outline, hi, or_and_right, exists_or]
  · simp [outline, hi, or_imp, forall_and]

theorem reflects_options {o : LinkOptions} (ho : l.options = some o) :
    Reflects (Message.encode w) [6] o.optionals := by
  have hall : Reflects (Message.encode w) [6]
      (o.optionals ++ [(11, decide (o.unidirectional = 1))]) := by
    apply (outlined h).reflects_inner
    · simp [LinkOptions.optionals]
    · simp [outline, ho, or_and_right, exists_or]
    · simp [outline, ho, or_imp, forall_and, LinkOptions.tags]
  intro f hf
  exact hall f (List.mem_append_left _ hf)

end Link

/-- The bytes of a node, and those of a link that has a form on the wire, show of each optional
field whether it is set, also inside of a part. Beyond these fields the outlines have a mark only
for a service, for a kind that is not zero and for a link in one direction. -/
theorem absence_visible :
    (∀ n : Node,
      Outlined (Message.encode n.toWire) n.outline ∧
        Reflects (Message.encode n.toWire) [] n.optionals ∧
        ∀ p, n.position = some p → Reflects (Message.encode n.toWire) [5] p.optionals) ∧
    ∀ (l : Link) (w : Wire.Link), l.toWire = .ok w →
      Outlined (Message.encode w) l.outline ∧
        Reflects (Message.encode w) [] l.optionals ∧
        (∀ i, l.interfaceOne = some i → Reflects (Message.encode w) [4] i.optionals) ∧
        (∀ i, l.interfaceTwo = some i → Reflects (Message.encode w) [5] i.optionals) ∧
        ∀ o, l.options = some o → Reflects (Message.encode w) [6] o.optionals := by
  constructor
  · intro n
    exact ⟨n.outlined, n.reflects, fun p hp => Node.reflects_position hp⟩
  · intro l w h
    exact ⟨Link.outlined h, Link.reflects h, fun i hi => Link.reflects_interfaceOne h hi,
      fun i hi => Link.reflects_interfaceTwo h hi, fun o ho => Link.reflects_options h ho⟩

/-- Zero, an empty text and a part in which nothing is set are there; what is open is not. -/
theorem zero_visible :
    let l : Link :=
      { nodeOne := some 0, interfaceOne := some {}, interfaceTwo := some { name := some "" },
        options := some { bandwidth := some ⟨0⟩, unidirectional := 2 } }
    ∃ w, l.toWire = .ok w ∧ Holds [1] (Message.encode w) ∧ ¬ Holds [2] (Message.encode w) ∧
      Holds [4] (Message.encode w) ∧ ¬ Holds [4, 1] (Message.encode w) ∧
      Holds [5, 2] (Message.encode w) ∧ Holds [6, 7] (Message.encode w) ∧
      ¬ Holds [6, 9] (Message.encode w) := by
  intro l
  obtain ⟨-, hlink⟩ := absence_visible
  obtain ⟨-, hfields, hone, htwo, hoptions⟩ := hlink l _ rfl
  refine ⟨_, rfl, (hfields (1, true) (by decide)).mpr rfl, ?_,
    (hfields (4, true) (by decide)).mpr rfl, ?_, (htwo _ rfl (2, true) (by decide)).mpr rfl,
    (hoptions _ rfl (7, true) (by decide)).mpr rfl, ?_⟩
  · simpa using (hfields (2, false) (by decide)).not
  · simpa using (hone _ rfl (1, false) (by decide)).not
  · simpa using (hoptions _ rfl (9, false) (by decide)).not

end EmuControl
