import EmuControl.Proofs.FieldPresence
import EmuControl.Proofs.TopologyFile

/-!
# Topologies in files of another format

A topology may be saved in another format than it was loaded from, and the formats have different
numbers: TOML has words for those that are not finite, and JSON writes `null` for them. What is
saved can always be loaded again. It is the same topology with the numbers that are read for its
own, and a field is left open where no number is read.

So a saved topology has the same fields set, unless it is a JSON file and one of its numbers is not
finite.
-/
namespace EmuControl

open EmuControl.Number

namespace FileFormat

/-- The number that the format reads in its text for a number. -/
def restored (format : FileFormat) (x : Binary64) : Option Binary64 :=
  match format.reread x with
  | some (.float y) => some y
  | _ => none

/-- JSON reads nothing for a number that is not finite; every other text has a number in it. -/
theorem reread_cases (format : FileFormat) (x : Binary64) :
    (∃ y, format.reread x = some (.float y)) ∧ (format = .toml ∨ x.isFinite = true) ∨
      format.reread x = some .null ∧ format = .json ∧ x.isFinite = false := by
  cases format with
  | toml =>
    obtain ⟨y, htext⟩ := Toml.exists_isScalarText_float x
    exact .inl ⟨⟨y, htext.read⟩, .inl rfl⟩
  | json =>
    cases hx : x.isFinite with
    | true =>
      obtain ⟨y, hspells⟩ := Json.exists_spells_float hx
      exact .inl ⟨⟨y, hspells.parse?_eq⟩, .inr rfl⟩
    | false =>
      have hnull : Json.Spells (Json.floatText x).toList .null :=
        Json.floatText_of_not_finite hx ▸ Json.spells_null
      exact .inr ⟨hnull.parse?_eq, rfl, rfl⟩

theorem rereads_restored (format : FileFormat) (x : Binary64) :
    format.Rereads format.restored x := by
  rw [Rereads, restored]
  rcases format.reread_cases x with ⟨⟨y, hread⟩, -⟩ | ⟨hread, -, -⟩
  · rw [hread]
    rfl
  · rw [hread]
    rfl

theorem restored_isSome_iff (format : FileFormat) (x : Binary64) :
    (format.restored x).isSome = true ↔ format = .toml ∨ x.isFinite = true := by
  rw [restored]
  rcases format.reread_cases x with ⟨⟨y, hread⟩, hnumber⟩ | ⟨hread, rfl, hx⟩
  · rw [hread]
    exact iff_of_true rfl hnumber
  · rw [hread, hx]
    decide

end FileFormat

section Fields

/-- Which optional fields are set in a record, and in its parts where these are set. -/
structure Presence where
  fields : List (Nat × Bool)
  parts : List (Option (List (Nat × Bool)))
  deriving DecidableEq

def Node.presence (n : Node) : Presence where
  fields := n.optionals
  parts := [n.position.map Position.optionals]

def Link.presence (l : Link) : Presence where
  fields := l.optionals
  parts := [l.interfaceOne.map Interface.optionals, l.interfaceTwo.map Interface.optionals,
    l.options.map LinkOptions.optionals]

/-- Which optional fields are set in each node and in each link, in order. -/
def Topology.presence (t : Topology) : List Presence × List Presence :=
  (t.nodes.map Node.presence, t.links.map Link.presence)

variable {g : Binary64 → Option Binary64}

theorem isSome_bind_eq_iff {x : Option Binary64} :
    (x.bind g).isSome = x.isSome ↔ ∀ y ∈ x.toList, (g y).isSome = true := by
  cases x <;> simp

theorem option_map_eq_iff {α β : Type} {f f' : α → β} {a : Option α} :
    a.map f = a.map f' ↔ ∀ x ∈ a.toList, f x = f' x := by
  cases a <;> simp

theorem Position.optionals_bindFloats {p : Position} :
    (p.bindFloats g).optionals = p.optionals ↔ ∀ x ∈ p.floats, (g x).isSome = true := by
  simp [bindFloats, optionals, floats, isSome_bind_eq_iff, or_imp, forall_and]

theorem LinkOptions.optionals_bindFloats {o : LinkOptions} :
    (o.bindFloats g).optionals = o.optionals ↔ ∀ x ∈ o.floats, (g x).isSome = true := by
  simp only [bindFloats, optionals, floats, List.cons.injEq, Prod.mk.injEq, isSome_bind_eq_iff,
    List.forall_mem_flatMap, List.forall_mem_cons, true_and, and_true]
  tauto

theorem Node.presence_bindFloats {n : Node} :
    (n.bindFloats g).presence = n.presence ↔ ∀ x ∈ n.floats, (g x).isSome = true := by
  have hposition : (n.position.map (Position.bindFloats g)).map Position.optionals =
      n.position.map Position.optionals ↔ ∀ x ∈ n.floats, (g x).isSome = true := by
    rw [Option.map_map, option_map_eq_iff, floats, List.forall_mem_flatMap]
    simp only [Function.comp_apply, Position.optionals_bindFloats]
  rw [← hposition]
  simp [presence, bindFloats, optionals]

theorem Link.presence_bindFloats {l : Link} :
    (l.bindFloats g).presence = l.presence ↔ ∀ x ∈ l.floats, (g x).isSome = true := by
  have hoptions : (l.options.map (LinkOptions.bindFloats g)).map LinkOptions.optionals =
      l.options.map LinkOptions.optionals ↔ ∀ x ∈ l.floats, (g x).isSome = true := by
    rw [Option.map_map, option_map_eq_iff, floats, List.forall_mem_flatMap]
    simp only [Function.comp_apply, LinkOptions.optionals_bindFloats]
  rw [← hoptions]
  simp [presence, bindFloats, optionals]

/-- With other numbers the same fields are set exactly if every number has another. -/
theorem Topology.presence_bindFloats {t : Topology} :
    (t.bindFloats g).presence = t.presence ↔ ∀ x ∈ t.floats, (g x).isSome = true := by
  rw [presence, presence, Prod.mk.injEq, bindFloats, List.map_map, List.map_map, List.map_inj_left,
    List.map_inj_left, floats, List.forall_mem_append, List.forall_mem_flatMap,
    List.forall_mem_flatMap]
  simp only [Function.comp_apply, Node.presence_bindFloats, Link.presence_bindFloats]

end Fields

namespace Topology

variable {σ : Type} (daemon : Daemon σ)

/-- Whether a topology is valid does not depend on its numbers. -/
theorem WellFormed.bindFloats {t : Topology} (h : t.WellFormed) (g : Binary64 → Option Binary64) :
    (t.bindFloats g).WellFormed where
  distinct := by
    rw [Topology.bindFloats, List.filterMap_map]
    exact h.distinct
  identified := List.forall_mem_map.mpr h.identified
  joined := List.forall_mem_map.mpr h.joined

theorem hasPlaceFor_of_save {t : Topology} {path : String} {m : Machine σ}
    (h : ((t.save path).run.run (Machine.world daemon) m).1 = .ok ()) :
    m.files.hasPlaceFor path = true := by
  by_contra hplace
  have hwrite : m.files.write path (.ofText ((FileFormat.ofPath path).render t)) =
      .error .notFound := if_neg hplace
  simp only [save, Workflow.writeFile, Program.perform, ExceptT.run_mk, Program.run_bind,
    Program.run, Machine.world, hwrite] at h
  cases h

/-- A well-formed topology that was saved is loaded with the numbers that are read for its own. -/
theorem load_stored {t : Topology} (h : t.WellFormed) (path : String) (m : Machine σ) :
    (load path).run.run (Machine.world daemon) (t.stored path m) =
      (.ok (t.bindFloats (FileFormat.ofPath path).restored), t.stored path m) := by
  have hvalid := offence?_eq_none_iff.mpr (h.bindFloats (FileFormat.ofPath path).restored)
  have hexpresses := FileFormat.expresses_topology fun x (_ : x ∈ t.floats) =>
    (FileFormat.ofPath path).rereads_restored x
  exact load_run_of_ofText daemon (t.isAt_stored path m)
    (ofText_of_valid (FileFormat.parse?_render hexpresses) hvalid)

end Topology

/-- A topology that was loaded and saved is loaded again, with the numbers that are read for its own
and everything else as it was. Only a number that is not finite has no other, and that in JSON only.
So the same fields are set exactly if the file is a TOML file or all numbers are finite. -/
theorem saving_keeps_fields_iff {σ : Type} (daemon : Daemon σ) (source path : String)
    (m m' : Machine σ) (t : Topology)
    (hload : ((Topology.load source).run.run (Machine.world daemon) m).1 = .ok t)
    (hsave : ((t.save path).run.run (Machine.world daemon) m').1 = .ok ()) :
    let saved := ((t.save path).run.run (Machine.world daemon) m').2
    let format := FileFormat.ofPath path
    ∃ u, ((Topology.load path).run.run (Machine.world daemon) saved).1 = .ok u ∧
      u = t.bindFloats format.restored ∧
      (∀ x, (format.restored x).isSome = true ↔ format = .toml ∨ x.isFinite = true) ∧
      (u.presence = t.presence ↔ format = .toml ∨ ∀ x ∈ t.floats, x.isFinite = true) := by
  have hyields := (Topology.load source).run.yields_run (Machine.world daemon) m
  rw [hload] at hyields
  have hvalid := Topology.offence?_eq_none_iff.mp (Topology.offence?_of_load hyields)
  have hplace := Topology.hasPlaceFor_of_save daemon hsave
  dsimp only
  rw [Topology.save_run daemon hplace, Topology.load_stored daemon hvalid]
  refine ⟨_, rfl, rfl, FileFormat.restored_isSome_iff _, ?_⟩
  rw [Topology.presence_bindFloats]
  simp only [FileFormat.restored_isSome_iff]
  by_cases htoml : FileFormat.ofPath path = .toml
  · simp only [htoml, true_or, implies_true]
  · simp only [htoml, false_or]

/-- A node that is infinitely far to the right. -/
def remoteTopology : Topology where
  nodes := [{ id := some 1, position := some { x := some ⟨0x7ff0000000000000⟩ } }]

/-- A computer that has the topology in a file. -/
def remoteMachine : Machine Recording where
  daemon := {}
  files := ⟨.ofList [("lab.toml", .ofText "[[nodes]]\nid = 1\n[nodes.position]\nx = inf")]⟩

theorem load_remoteTopology :
    ((Topology.load "lab.toml").run.run (Machine.world Recording.reply) remoteMachine).1 =
      .ok remoteTopology := by
  decide +kernel

/-- A copy in TOML has the distance to the right. -/
theorem remoteTopology_copied :
    ((Topology.load "lab.toml").run.run (Machine.world Recording.reply) remoteMachine).1 =
      .ok remoteTopology ∧
    let saved := (remoteTopology.save "copy.toml").run.run (Machine.world Recording.reply)
      remoteMachine
    saved.1 = .ok () ∧
    ∃ u, ((Topology.load "copy.toml").run.run (Machine.world Recording.reply) saved.2).1 = .ok u ∧
      u.presence = remoteTopology.presence := by
  have hsave : ((remoteTopology.save "copy.toml").run.run (Machine.world Recording.reply)
      remoteMachine).1 = .ok () := by decide +kernel
  have htoml : FileFormat.ofPath "copy.toml" = .toml := by decide +kernel
  obtain ⟨u, hu, -, -, hfields⟩ := saving_keeps_fields_iff Recording.reply "lab.toml" "copy.toml"
    _ _ _ load_remoteTopology hsave
  exact ⟨load_remoteTopology, hsave, u, hu, hfields.mpr (.inl htoml)⟩

/-- A copy in JSON has lost it, and the field with it. -/
theorem remoteTopology_converted :
    ((Topology.load "lab.toml").run.run (Machine.world Recording.reply) remoteMachine).1 =
      .ok remoteTopology ∧
    let saved := (remoteTopology.save "lab.json").run.run (Machine.world Recording.reply)
      remoteMachine
    saved.1 = .ok () ∧
    ∃ u, ((Topology.load "lab.json").run.run (Machine.world Recording.reply) saved.2).1 = .ok u ∧
      u.nodes = [{ id := some 1, position := some {} }] ∧
      u.presence ≠ remoteTopology.presence := by
  have hvalid : remoteTopology.WellFormed :=
    Topology.offence?_eq_none_iff.mp (by decide)
  have hplace : remoteMachine.files.hasPlaceFor "lab.json" = true := by decide +kernel
  have hlost : remoteTopology.bindFloats (FileFormat.ofPath "lab.json").restored =
      { nodes := [{ id := some 1, position := some {} }] } := by decide +kernel
  dsimp only
  rw [Topology.save_run Recording.reply hplace, Topology.load_stored Recording.reply hvalid, hlost]
  exact ⟨load_remoteTopology, rfl, _, rfl, rfl, by decide⟩

end EmuControl
