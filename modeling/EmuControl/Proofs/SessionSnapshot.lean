import EmuControl.Mapping.Session
import EmuControl.Proofs.TopologyMapping

/-!
# Snapshots of sessions

A snapshot that comes in from the wire is mapped part by part: its nodes in their order, then its
state, then its links in their order. Here it is said of which messages there is a snapshot and what
stands in it, and which fault is reported of a message that has several.

`Wire.Session.Faulty` is the fault that comes first in that order. It speaks of numbers and texts of
the message and not of the mapping.
-/
namespace EmuControl

open EmuControl.Number EmuControl.Text

/-- The item stands in the list, and everything before it is good. -/
def Foremost {α : Type} (good : α → Prop) (xs : List α) (x : α) : Prop :=
  ∃ before rest, xs = before ++ x :: rest ∧ ∀ y ∈ before, good y

theorem foremost_nil {α : Type} {good : α → Prop} {x : α} : ¬ Foremost good [] x := by
  intro h
  obtain ⟨before, rest, hsplit, -⟩ := h
  cases before <;> cases hsplit

theorem foremost_cons {α : Type} {good : α → Prop} {x y : α} {xs : List α} :
    Foremost good (x :: xs) y ↔ y = x ∨ good x ∧ Foremost good xs y := by
  constructor
  · intro h
    obtain ⟨before, rest, hsplit, hgood⟩ := h
    cases before with
    | nil =>
      cases hsplit
      exact .inl rfl
    | cons b before =>
      cases hsplit
      rw [List.forall_mem_cons] at hgood
      exact .inr ⟨hgood.1, before, rest, rfl, hgood.2⟩
  · intro h
    rcases h with rfl | ⟨hx, before, rest, rfl, hgood⟩
    · exact ⟨[], xs, rfl, by simp⟩
    · exact ⟨x :: before, rest, rfl, List.forall_mem_cons.mpr ⟨hx, hgood⟩⟩

/-- The entries of a map stand in the order of their keys, so those before one have smaller keys. -/
theorem SortedMap.foremost_entries_iff {κ ν : Type} [Ord κ] [Std.OrientedOrd κ]
    {m : SortedMap κ ν} {good : κ × ν → Prop} {e : κ × ν} :
    Foremost good m.entries e ↔
      e ∈ m.entries ∧ ∀ e' ∈ m.entries, compare e'.1 e.1 = .lt → good e' := by
  have hsorted := m.sorted
  constructor
  · intro h
    obtain ⟨before, rest, hentries, hgood⟩ := h
    rw [hentries] at hsorted ⊢
    refine ⟨List.mem_append_cons_self, fun e' he' hlt => ?_⟩
    rcases List.mem_append.mp he' with hbefore | hrest
    · exact hgood e' hbefore
    · rcases List.mem_cons.mp hrest with rfl | hrest
      · simp at hlt
      · have hgt := List.rel_of_pairwise_cons (List.pairwise_append.mp hsorted).2.1 hrest
        cases (Std.OrientedCmp.gt_of_lt hgt).symm.trans hlt
  · intro h
    obtain ⟨hmem, hgood⟩ := h
    obtain ⟨before, rest, hentries⟩ := List.append_of_mem hmem
    rw [hentries] at hsorted hgood
    refine ⟨before, rest, hentries, fun e' he' => ?_⟩
    have hlt := (List.pairwise_append.mp hsorted).2.2 e' he' e List.mem_cons_self
    exact hgood e' (List.mem_append_left _ he') hlt

namespace Mapped

variable {α β : Type}

theorem bind_eq_error_iff {m : Mapped α} {k : α → Mapped β} {e : MappingError} :
    m >>= k = .error e ↔ m = .error e ∨ ∃ a, m = .ok a ∧ k a = .error e := by
  cases m with
  | error e' => simp [bind, Except.bind]
  | ok a => simp [bind, Except.bind]

/-- The images of a list stand in the order of the list. -/
theorem mapM_eq_ok_iff {f : α → Mapped β} {xs : List α} {ys : List β} :
    xs.mapM f = .ok ys ↔ List.Forall₂ (fun x y => f x = .ok y) xs ys := by
  induction xs generalizing ys with
  | nil =>
    rw [List.mapM_nil, List.forall₂_nil_left_iff]
    exact ⟨fun h => (Except.ok.inj h).symm, fun h => h ▸ rfl⟩
  | cons x xs ih =>
    rw [List.mapM_cons, bind_eq_ok_iff, List.forall₂_cons_left_iff]
    constructor
    · intro h
      obtain ⟨y, hy, h⟩ := h
      obtain ⟨rest, hrest, h⟩ := bind_eq_ok_iff.mp h
      exact ⟨y, rest, hy, ih.mp hrest, (Except.ok.inj h).symm⟩
    · intro h
      obtain ⟨y, rest, hy, hrest, rfl⟩ := h
      exact ⟨y, hy, bind_eq_ok_iff.mpr ⟨rest, ih.mpr hrest, rfl⟩⟩

theorem exists_mapM_iff {f : α → Mapped β} {xs : List α} :
    (∃ ys, xs.mapM f = .ok ys) ↔ ∀ x ∈ xs, ∃ y, f x = .ok y := by
  induction xs with
  | nil => simp [pure, Except.pure]
  | cons x xs ih =>
    simp only [List.mapM_cons, bind_eq_ok_iff, List.forall_mem_cons, ← ih]
    constructor
    · intro h
      obtain ⟨ys, y, hy, rest, hrest, -⟩ := h
      exact ⟨⟨y, hy⟩, rest, hrest⟩
    · intro h
      obtain ⟨⟨y, hy⟩, rest, hrest⟩ := h
      exact ⟨y :: rest, y, hy, rest, hrest, rfl⟩

/-- A list is refused for its first item that is, of those that are not left out. -/
theorem mapM_filter_eq_error_iff {f : α → Mapped β} {p : α → Bool} {xs : List α}
    {e : MappingError} :
    (xs.filter p).mapM f = .error e ↔
      ∃ x, Foremost (fun y => p y = true → ∃ b, f y = .ok b) xs x ∧ p x = true ∧ f x = .error e := by
  induction xs with
  | nil => simp [foremost_nil, pure, Except.pure]
  | cons x xs ih =>
    simp only [foremost_cons, or_and_right, exists_or, exists_eq_left, and_assoc]
    cases hp : p x with
    | false =>
      rw [List.filter_cons_of_neg (by simp [hp]), ih]
      simp
    | true =>
      rw [List.filter_cons_of_pos hp, List.mapM_cons, bind_eq_error_iff]
      simp only [true_and, forall_const, exists_and_left]
      apply or_congr_right
      constructor
      · intro h
        obtain ⟨b, hb, h⟩ := h
        rcases bind_eq_error_iff.mp h with h | ⟨_, _, h⟩
        · exact ⟨⟨b, hb⟩, ih.mp h⟩
        · cases h
      · intro h
        obtain ⟨⟨b, hb⟩, h⟩ := h
        exact ⟨b, hb, bind_eq_error_iff.mpr (.inl (ih.mpr h))⟩

theorem mapM_eq_error_iff {f : α → Mapped β} {xs : List α} {e : MappingError} :
    xs.mapM f = .error e ↔ ∃ x, Foremost (fun y => ∃ b, f y = .ok b) xs x ∧ f x = .error e := by
  have h := @mapM_filter_eq_error_iff α β f (fun _ => true) xs e
  simpa using h

theorem member_eq_error_iff {enumeration : String} {all : List α} {number : α → Int32} {n : Int32}
    {e : MappingError} :
    member enumeration all number n = .error e ↔
      n ∉ all.map number ∧ e = .unknownMember enumeration n := by
  unfold member
  split
  · rename_i a hfound
    have hmem : n ∈ all.map number :=
      List.mem_map.mpr ⟨a, List.mem_of_find?_eq_some hfound, by simpa using List.find?_some hfound⟩
    simp [hmem]
  · rename_i hnone
    have hmem : n ∉ all.map number := by simpa using hnone
    simp [hmem, eq_comm]

end Mapped

/-! Which numbers and texts of a message have a meaning -/

namespace Wire

/-- The number of the node's kind is known, or the node is left out anyway. -/
def Node.IsReadable (n : Node) : Prop :=
  n.kind ≠ NodeKind.peerToPeer.number → n.kind ∈ [0, 1, 3, 4, 5, 6, 7, 8, 9, 10, 11, 12, 13, 14]

/-- A key of the link is blank or an integer. -/
def Link.HasReadableKey (l : Link) : Prop :=
  ∀ o text, l.options = some o → o.key = some text → trim text = "" ∨ HoldsInt32 text

def Link.IsReadable (l : Link) : Prop :=
  (l.kind = 0 ∨ l.kind = 1) ∧ l.HasReadableKey

/-- What is reported of a link. The key is looked at before the kind. -/
inductive Link.Faulty (l : Link) : MappingError → Prop
  | key {o : LinkOptions} {text : String} : l.options = some o → o.key = some text →
      trim text ≠ "" → ¬ HoldsInt32 text → Faulty l (.invalidNumber "key" (trim text))
  | kind : l.HasReadableKey → l.kind ≠ 0 → l.kind ≠ 1 → Faulty l (.unknownMember "link type" l.kind)

def Session.HasReadableState (s : Session) : Prop :=
  s.state ∈ [0, 1, 2, 3, 4, 5, 6]

/-- What is reported of a snapshot: its first fault in the order nodes, state, links. -/
inductive Session.Faulty (s : Session) : MappingError → Prop
  | node {n : Node} : Foremost Node.IsReadable s.nodes n → ¬ n.IsReadable →
      Faulty s (.unknownMember "node type" n.kind)
  | state : (∀ n ∈ s.nodes, n.IsReadable) → ¬ s.HasReadableState →
      Faulty s (.unknownMember "session state" s.state)
  | link {l : Link} {e : MappingError} : (∀ n ∈ s.nodes, n.IsReadable) → s.HasReadableState →
      Foremost Link.IsReadable s.links l → l.Faulty e → Faulty s e

end Wire

theorem SessionState.mem_all (s : SessionState) : s ∈ all := by
  cases s <;> decide

theorem SessionState.ofNumber_eq_ok_iff {n : Int32} {s : SessionState} :
    SessionState.ofNumber n = .ok s ↔ s.number = n :=
  Mapped.member_eq_ok_iff mem_all (by decide)

theorem SessionState.exists_ofNumber_iff {n : Int32} :
    (∃ s, SessionState.ofNumber n = .ok s) ↔ n ∈ [0, 1, 2, 3, 4, 5, 6] := by
  have hnumbers : [0, 1, 2, 3, 4, 5, 6] = all.map number := by decide
  simp only [ofNumber_eq_ok_iff, hnumbers, List.mem_map, mem_all, true_and]

theorem SessionState.ofNumber_eq_error_iff {n : Int32} {e : MappingError} :
    SessionState.ofNumber n = .error e ↔
      n ∉ [0, 1, 2, 3, 4, 5, 6] ∧ e = .unknownMember "session state" n :=
  Mapped.member_eq_error_iff

theorem NodeKind.ofNumber_eq_error_iff {n : Int32} {e : MappingError} :
    NodeKind.ofNumber n = .error e ↔
      n ∉ [0, 1, 3, 4, 5, 6, 7, 8, 9, 10, 11, 12, 13, 14] ∧ e = .unknownMember "node type" n :=
  Mapped.member_eq_error_iff

theorem LinkKind.ofNumber_eq_error_iff {n : Int32} {e : MappingError} :
    LinkKind.ofNumber n = .error e ↔ n ∉ [0, 1] ∧ e = .unknownMember "link type" n :=
  Mapped.member_eq_error_iff

theorem Node.ofWire_eq_error_iff {w : Wire.Node} {e : MappingError} :
    Node.ofWire w = .error e ↔
      w.kind ∉ [0, 1, 3, 4, 5, 6, 7, 8, 9, 10, 11, 12, 13, 14] ∧
        e = .unknownMember "node type" w.kind := by
  unfold Node.ofWire
  rw [Mapped.bind_eq_error_iff, NodeKind.ofNumber_eq_error_iff]
  constructor
  · intro h
    rcases h with h | ⟨_, _, h⟩
    · exact h
    · cases h
  · exact .inl

theorem Node.number_of_ofWire {w : Wire.Node} {n : Node} (h : Node.ofWire w = .ok n) :
    n.kind.number = w.kind := by
  obtain ⟨kind, hkind, h⟩ := Mapped.bind_eq_ok_iff.mp h
  obtain rfl := Except.ok.inj h
  exact NodeKind.ofNumber_eq_ok_iff.mp hkind

namespace LinkOptions

theorem keyOfWire_eq_error_iff {text : String} {e : MappingError} :
    keyOfWire text = .error e ↔
      trim text ≠ "" ∧ ¬ HoldsInt32 text ∧ e = .invalidNumber "key" (trim text) := by
  unfold keyOfWire
  dsimp only
  split
  · rename_i hblank
    simp [hblank]
  · rename_i hblank
    unfold Mapped.int32
    rw [trim_trim, holdsInt32_iff, not_not]
    cases readInt32? (trim text) <;> simp [Except.map, hblank, eq_comm]

theorem ofWire_eq_error_iff {w : Wire.LinkOptions} {e : MappingError} :
    ofWire w = .error e ↔ ∃ text, w.key = some text ∧ keyOfWire text = .error e := by
  rw [ofWire_eq]
  cases w.key with
  | none => simp [Except.map]
  | some text =>
    rw [Option.elim_some]
    cases h : keyOfWire text <;> simp [Except.map, h]

end LinkOptions

namespace Link

theorem exists_options_iff {w : Wire.Link} :
    (∃ options, Mapped.option LinkOptions.ofWire w.options = .ok options) ↔ w.HasReadableKey := by
  simp only [Mapped.option_isOk_iff, LinkOptions.exists_ofWire_iff, Wire.Link.HasReadableKey]
  exact ⟨fun h o text ho => h o ho text, fun h o ho text => h o text ho⟩

theorem options_eq_error_iff {w : Wire.Link} {e : MappingError} :
    Mapped.option LinkOptions.ofWire w.options = .error e ↔
      ∃ o, w.options = some o ∧ LinkOptions.ofWire o = .error e := by
  unfold Mapped.option
  cases w.options with
  | none => simp
  | some o => cases h : LinkOptions.ofWire o <;> simp [Except.map, h]

theorem ofWire_eq_error_iff {w : Wire.Link} {e : MappingError} :
    ofWire w = .error e ↔ w.Faulty e := by
  unfold ofWire
  rw [Mapped.bind_eq_error_iff, options_eq_error_iff]
  constructor
  · intro h
    rcases h with ⟨o, ho, h⟩ | ⟨options, hoptions, h⟩
    · obtain ⟨text, htext, h⟩ := LinkOptions.ofWire_eq_error_iff.mp h
      obtain ⟨hblank, hbad, rfl⟩ := LinkOptions.keyOfWire_eq_error_iff.mp h
      exact .key ho htext hblank hbad
    · rcases Mapped.bind_eq_error_iff.mp h with h | ⟨_, _, h⟩
      · obtain ⟨hkind, rfl⟩ := LinkKind.ofNumber_eq_error_iff.mp h
        simp only [List.mem_cons, List.not_mem_nil, or_false, not_or] at hkind
        exact .kind (exists_options_iff.mp ⟨options, hoptions⟩) hkind.1 hkind.2
      · cases h
  · intro h
    cases h with
    | key ho htext hblank hbad =>
      refine .inl ⟨_, ho, LinkOptions.ofWire_eq_error_iff.mpr ⟨_, htext, ?_⟩⟩
      exact LinkOptions.keyOfWire_eq_error_iff.mpr ⟨hblank, hbad, rfl⟩
    | kind hkey hzero hone =>
      obtain ⟨options, hoptions⟩ := exists_options_iff.mpr hkey
      refine .inr ⟨options, hoptions, Mapped.bind_eq_error_iff.mpr (.inl ?_)⟩
      exact LinkKind.ofNumber_eq_error_iff.mpr ⟨by simp [hzero, hone], rfl⟩

end Link

namespace Session

/-- Of the nodes of a message, those that are not left out. -/
def visibleNodes (w : Wire.Session) : List Wire.Node :=
  w.nodes.filter fun n => n.kind != NodeKind.peerToPeer.number

theorem ofWire_eq_ok_iff {w : Wire.Session} {s : Session} :
    ofWire w = .ok s ↔
      List.Forall₂ (fun n m => Node.ofWire n = .ok m) (visibleNodes w) s.nodes ∧
      s.state.number = w.state ∧
      List.Forall₂ (fun l m => Link.ofWire l = .ok m) w.links s.links ∧ s.id = w.id := by
  unfold ofWire
  rw [Mapped.bind_eq_ok_iff]
  constructor
  · intro h
    obtain ⟨nodes, hnodes, h⟩ := h
    obtain ⟨state, hstate, h⟩ := Mapped.bind_eq_ok_iff.mp h
    obtain ⟨links, hlinks, h⟩ := Mapped.bind_eq_ok_iff.mp h
    obtain rfl := Except.ok.inj h
    exact ⟨Mapped.mapM_eq_ok_iff.mp hnodes, SessionState.ofNumber_eq_ok_iff.mp hstate,
      Mapped.mapM_eq_ok_iff.mp hlinks, rfl⟩
  · intro h
    obtain ⟨hnodes, hstate, hlinks, hid⟩ := h
    refine ⟨s.nodes, Mapped.mapM_eq_ok_iff.mpr hnodes, Mapped.bind_eq_ok_iff.mpr ⟨s.state, ?_, ?_⟩⟩
    · exact SessionState.ofNumber_eq_ok_iff.mpr hstate
    · exact Mapped.bind_eq_ok_iff.mpr ⟨s.links, Mapped.mapM_eq_ok_iff.mpr hlinks, by rw [← hid]; rfl⟩

theorem exists_nodes_iff {w : Wire.Session} :
    (∃ nodes, (visibleNodes w).mapM Node.ofWire = .ok nodes) ↔ ∀ n ∈ w.nodes, n.IsReadable := by
  simp only [Mapped.exists_mapM_iff, visibleNodes, List.mem_filter, bne_iff_ne, and_imp,
    Node.exists_ofWire_iff, NodeKind.exists_ofNumber_iff]
  rfl

theorem nodes_eq_error_iff {w : Wire.Session} {e : MappingError} :
    (visibleNodes w).mapM Node.ofWire = .error e ↔
      ∃ n, Foremost Wire.Node.IsReadable w.nodes n ∧ ¬ n.IsReadable ∧
        e = .unknownMember "node type" n.kind := by
  unfold visibleNodes
  rw [Mapped.mapM_filter_eq_error_iff]
  simp only [bne_iff_ne, Node.exists_ofWire_iff, NodeKind.exists_ofNumber_iff,
    Node.ofWire_eq_error_iff, Wire.Node.IsReadable, Classical.not_imp, and_assoc]
  rfl

theorem exists_links_iff {w : Wire.Session} :
    (∃ links, w.links.mapM Link.ofWire = .ok links) ↔ ∀ l ∈ w.links, l.IsReadable := by
  simp only [Mapped.exists_mapM_iff, Link.exists_ofWire_iff]
  rfl

theorem links_eq_error_iff {w : Wire.Session} {e : MappingError} :
    w.links.mapM Link.ofWire = .error e ↔
      ∃ l, Foremost Wire.Link.IsReadable w.links l ∧ l.Faulty e := by
  rw [Mapped.mapM_eq_error_iff]
  simp only [Link.exists_ofWire_iff, Link.ofWire_eq_error_iff]
  rfl

theorem exists_ofWire_iff {w : Wire.Session} :
    (∃ s, ofWire w = .ok s) ↔
      (∀ n ∈ w.nodes, n.IsReadable) ∧ w.HasReadableState ∧ ∀ l ∈ w.links, l.IsReadable := by
  rw [← exists_nodes_iff, Wire.Session.HasReadableState, ← SessionState.exists_ofNumber_iff,
    ← exists_links_iff]
  unfold ofWire
  constructor
  · intro h
    obtain ⟨s, h⟩ := h
    obtain ⟨nodes, hnodes, h⟩ := Mapped.bind_eq_ok_iff.mp h
    obtain ⟨state, hstate, h⟩ := Mapped.bind_eq_ok_iff.mp h
    obtain ⟨links, hlinks, -⟩ := Mapped.bind_eq_ok_iff.mp h
    exact ⟨⟨nodes, hnodes⟩, ⟨state, hstate⟩, links, hlinks⟩
  · intro h
    obtain ⟨⟨nodes, hnodes⟩, ⟨state, hstate⟩, links, hlinks⟩ := h
    refine ⟨⟨w.id, state, nodes, links⟩, Mapped.bind_eq_ok_iff.mpr ⟨nodes, hnodes, ?_⟩⟩
    refine Mapped.bind_eq_ok_iff.mpr ⟨state, hstate, ?_⟩
    exact Mapped.bind_eq_ok_iff.mpr ⟨links, hlinks, rfl⟩

theorem ofWire_eq_error_iff {w : Wire.Session} {e : MappingError} :
    ofWire w = .error e ↔ w.Faulty e := by
  unfold ofWire
  constructor
  · intro h
    rcases Mapped.bind_eq_error_iff.mp h with h | ⟨nodes, hnodes, h⟩
    · obtain ⟨n, hfirst, hbad, rfl⟩ := nodes_eq_error_iff.mp h
      exact .node hfirst hbad
    have hreadable := exists_nodes_iff.mp ⟨nodes, hnodes⟩
    rcases Mapped.bind_eq_error_iff.mp h with h | ⟨state, hstate, h⟩
    · obtain ⟨hbad, rfl⟩ := SessionState.ofNumber_eq_error_iff.mp h
      exact .state hreadable hbad
    have hknown := SessionState.exists_ofNumber_iff.mp ⟨state, hstate⟩
    rcases Mapped.bind_eq_error_iff.mp h with h | ⟨links, hlinks, h⟩
    · obtain ⟨l, hfirst, hbad⟩ := links_eq_error_iff.mp h
      exact .link hreadable hknown hfirst hbad
    cases h
  · intro h
    apply Mapped.bind_eq_error_iff.mpr
    cases h with
    | node hfirst hbad => exact .inl (nodes_eq_error_iff.mpr ⟨_, hfirst, hbad, rfl⟩)
    | state hreadable hbad =>
      obtain ⟨nodes, hnodes⟩ := exists_nodes_iff.mpr hreadable
      refine .inr ⟨nodes, hnodes, Mapped.bind_eq_error_iff.mpr (.inl ?_)⟩
      exact SessionState.ofNumber_eq_error_iff.mpr ⟨hbad, rfl⟩
    | link hreadable hknown hfirst hbad =>
      obtain ⟨nodes, hnodes⟩ := exists_nodes_iff.mpr hreadable
      obtain ⟨state, hstate⟩ := SessionState.exists_ofNumber_iff.mpr hknown
      refine .inr ⟨nodes, hnodes, Mapped.bind_eq_error_iff.mpr (.inr ⟨state, hstate, ?_⟩)⟩
      exact Mapped.bind_eq_error_iff.mpr (.inl (links_eq_error_iff.mpr ⟨_, hfirst, hbad⟩))

theorem kind_of_mem_nodes {visible : List Wire.Node} {nodes : List Node}
    (h : List.Forall₂ (fun n m => Node.ofWire n = .ok m) visible nodes)
    (hvisible : ∀ n ∈ visible, n.kind ≠ NodeKind.peerToPeer.number) :
    ∀ m ∈ nodes, m.kind ≠ .peerToPeer := by
  induction h with
  | nil => simp
  | cons hnode _ ih =>
    rw [List.forall_mem_cons] at hvisible ⊢
    refine ⟨?_, ih hvisible.2⟩
    intro hkind
    apply hvisible.1
    rw [← Node.number_of_ofWire hnode, hkind]

end Session

/-- There is a snapshot exactly of the messages whose numbers and keys have a meaning. It has the id
and the state of the message, the images of its nodes but for the daemon's own, and the images of
its links, all in the order of the message. Of any other message the first fault is reported. -/
theorem snapshot_mapping (w : Wire.Session) :
    ((∃ s, Session.ofWire w = .ok s) ↔
      (∀ n ∈ w.nodes, n.IsReadable) ∧ w.HasReadableState ∧ ∀ l ∈ w.links, l.IsReadable) ∧
    (∀ s, Session.ofWire w = .ok s → s.id = w.id ∧ s.state.number = w.state ∧
      List.Forall₂ (fun n m => Node.ofWire n = .ok m)
        (w.nodes.filter fun n => n.kind != NodeKind.peerToPeer.number) s.nodes ∧
      List.Forall₂ (fun l m => Link.ofWire l = .ok m) w.links s.links ∧
      ∀ m ∈ s.nodes, m.kind ≠ .peerToPeer) ∧
    ∀ e, Session.ofWire w = .error e ↔ w.Faulty e := by
  refine ⟨Session.exists_ofWire_iff, ?_, fun e => Session.ofWire_eq_error_iff⟩
  intro s h
  obtain ⟨hnodes, hstate, hlinks, hid⟩ := Session.ofWire_eq_ok_iff.mp h
  refine ⟨hid, hstate, hnodes, hlinks, Session.kind_of_mem_nodes hnodes ?_⟩
  simp [Session.visibleNodes]

/-- A snapshot with a node of the daemon's own between two others. -/
def plumbedSession : Wire.Session where
  id := -3
  state := 4
  nodes := [
    ⟨some 7, none, 14, none, none, ["zebra", "ospf"], none, none⟩,
    ⟨none, some "pipe", 12, none, none, [], none, none⟩,
    ⟨some 2, none, 0, none, none, [], none, none⟩]
  links := [⟨some 7, some 2, 1, none, none,
    some ⟨none, none, some "\t-08 ", none, none, none, none, none, none, none, false⟩⟩]

theorem plumbedSession_mapping :
    let snapshot : Session :=
      { id := -3
        state := .runtime
        nodes := [
          { id := some 7, kind := .emaneNet, services := .ofList ["ospf", "zebra"] },
          { id := some 2 }]
        links := [{ nodeOne := some 7, nodeTwo := some 2, options := some { key := some (-8) } }] }
    Session.ofWire plumbedSession = .ok snapshot ∧ ∀ m ∈ snapshot.nodes, m.kind ≠ .peerToPeer := by
  intro snapshot
  have h : Session.ofWire plumbedSession = .ok snapshot := by decide +kernel
  exact ⟨h, ((snapshot_mapping plumbedSession).2.1 snapshot h).2.2.2.2⟩

end EmuControl
