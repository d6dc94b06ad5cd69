import EmuControl.Mapping.Link

/-!
# When a link can be mapped

A link has a counterpart on the wire unless the mask of one of its IPv6 addresses holds no integer.
The first interface is looked at before the second one, and `Link.badMask?` is the mask that the
error names.
-/
namespace EmuControl

open EmuControl.Number EmuControl.Text

/-- The mask of the interface, when it holds no integer. -/
def Interface.badMask? (i : Interface) : Option String :=
  i.ip6Mask.filter fun mask => (readInt32? (trim mask)).isNone

/-- The first mask of the link that holds no integer. -/
def Link.badMask? (l : Link) : Option String :=
  (l.interfaceOne.bind Interface.badMask?).or (l.interfaceTwo.bind Interface.badMask?)

namespace Mapped

/-- The mapping fails exactly when there is a bad mask, and names it. -/
def Blames {α : Type} (m : Mapped α) : Option String → Prop
  | none => ∃ a, m = .ok a
  | some mask => m = .error (.invalidNumber "ip6_mask" mask)

variable {α β : Type}

theorem Blames.option {f : α → Mapped β} {bad : α → Option String}
    (hf : ∀ a, (f a).Blames (bad a)) (o : Option α) : (Mapped.option f o).Blames (o.bind bad) := by
  cases o with
  | none => exact ⟨none, rfl⟩
  | some a =>
    have h := hf a
    rw [Option.bind_some]
    cases hb : bad a with
    | none =>
      rw [hb] at h
      obtain ⟨b, hb⟩ := h
      exact ⟨some b, by rw [Mapped.option, hb]; rfl⟩
    | some mask =>
      rw [hb] at h
      change Except.map some (f a) = _
      rw [show f a = _ from h]
      rfl

theorem Blames.bind {m : Mapped α} {k : α → Mapped β} {bad rest : Option String}
    (hm : m.Blames bad) (hk : ∀ a, (k a).Blames rest) : (m >>= k).Blames (bad.or rest) := by
  cases bad with
  | none =>
    obtain ⟨a, rfl⟩ := hm
    exact hk a
  | some mask =>
    rw [show m = _ from hm]
    exact rfl

end Mapped

theorem Interface.mask_blames (mask : Option String) :
    (Mapped.option maskToWire mask).Blames
      (mask.filter fun text => (readInt32? (trim text)).isNone) := by
  cases mask with
  | none => exact ⟨none, rfl⟩
  | some text =>
    rw [Option.filter_some, Mapped.option, maskToWire, Mapped.int32]
    cases readInt32? (trim text) with
    | none => exact rfl
    | some n => exact ⟨some n, rfl⟩

theorem Interface.toWire_blames (i : Interface) : i.toWire.Blames i.badMask? := by
  rw [← Option.or_none (o := i.badMask?)]
  exact (mask_blames i.ip6Mask).bind fun _ => ⟨_, rfl⟩

theorem Link.toWire_blames (l : Link) : l.toWire.Blames l.badMask? := by
  have hone := Mapped.Blames.option Interface.toWire_blames l.interfaceOne
  have htwo := Mapped.Blames.option Interface.toWire_blames l.interfaceTwo
  rw [← Option.or_none (o := l.badMask?), badMask?, Option.or_assoc]
  exact hone.bind fun _ => htwo.bind fun _ => ⟨_, rfl⟩

end EmuControl
