import EmuControl.Mapping.Service
import EmuControl.Proofs.SortedLookup

/-!
# The catalogue of services by groups

The daemon lists all its services in one catalogue, and the groups are filled from it service by
service. At every point of the catalogue the groups list what has been read so far (`Lists`): each
has the names of its own services in the order of the catalogue, and none is empty. So the groups
hold the catalogue and nothing else, and two catalogues have the same groups exactly when they agree
on the services of each group.
-/
namespace EmuControl.ServiceGroups

open SortedMap

/-- The services of a group, in the order of the catalogue. -/
def inGroup (services : List Wire.Service) (group : String) : List Wire.Service :=
  services.filter fun s => s.group = group

def namesIn (services : List Wire.Service) (group : String) : List String :=
  (inGroup services group).map (·.name)

/-- The groups are those of the services. -/
structure Lists (groups : ServiceGroups) (services : List Wire.Service) : Prop where
  names_eq : ∀ group, (groups.get? group).getD [] = namesIn services group
  nonempty : ∀ group, groups.get? group ≠ some []

theorem inGroup_eq_map_namesIn (services : List Wire.Service) (group : String) :
    inGroup services group = (namesIn services group).map (Wire.Service.mk group) := by
  have hsame : ∀ s ∈ inGroup services group, Wire.Service.mk group s.name = s := by
    intro s hs
    have hgroup : s.group = group := by simpa using (List.mem_filter.mp hs).2
    rw [← hgroup]
  rw [namesIn, List.map_map]
  exact ((List.map_congr_left hsame).trans (List.map_id _)).symm

theorem namesIn_append (services : List Wire.Service) (s : Wire.Service) (group : String) :
    namesIn (services ++ [s]) group =
      if group = s.group then namesIn services group ++ [s.name] else namesIn services group := by
  unfold namesIn inGroup
  rw [List.filter_append, List.map_append]
  by_cases hgroup : group = s.group
  · simp [hgroup]
  · simp [hgroup, Ne.symm hgroup]

/-- One more service goes to the end of its group, which may be a new one. -/
theorem Lists.add {groups : ServiceGroups} {services : List Wire.Service} (h : Lists groups services)
    (s : Wire.Service) : Lists (groups.add s) (services ++ [s]) := by
  have hget : ∀ group, (groups.add s).get? group =
      if group = s.group then some (namesIn services group ++ [s.name]) else groups.get? group := by
    intro group
    rw [ServiceGroups.add, get?_insert, h.names_eq]
    split
    · rename_i hgroup
      rw [hgroup]
    · rfl
  constructor
  · intro group
    rw [hget, namesIn_append]
    split
    · rfl
    · exact h.names_eq group
  · intro group
    rw [hget]
    split
    · simp
    · exact h.nonempty group

theorem Lists.foldl_add {groups : ServiceGroups} {before : List Wire.Service}
    (h : Lists groups before) (services : List Wire.Service) :
    Lists (services.foldl ServiceGroups.add groups) (before ++ services) := by
  induction services generalizing groups before with
  | nil => rwa [List.append_nil]
  | cons s services ih =>
    rw [← List.singleton_append, ← List.append_assoc]
    exact ih (h.add s)

theorem lists_ofWire (services : List Wire.Service) : Lists (ofWire services) services := by
  have hempty : Lists .empty [] := ⟨fun _ => rfl, fun _ => nofun⟩
  exact hempty.foldl_add services

theorem Lists.get?_eq_some_iff {groups : ServiceGroups} {services : List Wire.Service}
    (h : Lists groups services) {group : String} {names : List String} :
    groups.get? group = some names ↔ names ≠ [] ∧ names = namesIn services group := by
  have hnames := h.names_eq group
  have hnonempty := h.nonempty group
  cases hget : groups.get? group with
  | none =>
    rw [hget] at hnames
    rw [← hnames]
    simp
  | some names' =>
    rw [hget] at hnames hnonempty
    obtain rfl : names' = namesIn services group := hnames
    rw [Option.some.injEq]
    constructor
    · rintro rfl
      exact ⟨fun hnil => hnonempty (congrArg some hnil), rfl⟩
    · intro h
      exact h.2.symm

theorem Lists.mem_keys_iff {groups : ServiceGroups} {services : List Wire.Service}
    (h : Lists groups services) {group : String} :
    group ∈ groups.keys ↔ ∃ s ∈ services, s.group = group := by
  have hkeys : group ∈ groups.keys ↔ groups.get? group ≠ none :=
    (not_iff_comm.mp lookup_eq_none_iff.symm).symm
  have hnames : groups.get? group ≠ none ↔ namesIn services group ≠ [] := by
    rw [Option.ne_none_iff_exists']
    simp [h.get?_eq_some_iff]
  rw [hkeys, hnames, namesIn, inGroup]
  simp

/-- Groups are determined by the names that they list. -/
theorem Lists.eq_iff {groups groups' : ServiceGroups} {services services' : List Wire.Service}
    (h : Lists groups services) (h' : Lists groups' services') :
    groups = groups' ↔ ∀ group, inGroup services group = inGroup services' group := by
  constructor
  · rintro rfl group
    rw [inGroup_eq_map_namesIn, inGroup_eq_map_namesIn, ← h.names_eq, ← h'.names_eq]
  · intro hsame
    refine ext_get? fun group => Option.ext fun names => ?_
    rw [h.get?_eq_some_iff, h'.get?_eq_some_iff, namesIn, namesIn, hsame]

/-! What the groups hold -/

/-- The services that a group lists. -/
def listed (e : String × List String) : List Wire.Service :=
  e.2.map (Wire.Service.mk e.1)

/-- All services of the groups, group by group. -/
def contents (groups : ServiceGroups) : List Wire.Service :=
  groups.entries.flatMap listed

/-- A new group stands before all greater ones, and an old one grows where it is. -/
theorem place_perm (s : Wire.Service) {es : List (String × List String)}
    (hes : es.Pairwise fun a b => compare a.1 b.1 = .lt) :
    ((place s.group ((lookup s.group es).getD [] ++ [s.name]) es).flatMap listed).Perm
      (s :: es.flatMap listed) := by
  induction es with
  | nil => exact .refl _
  | cons e es ih =>
    obtain ⟨group, names⟩ := e
    rw [place]
    split
    · rename_i hlt
      rw [lookup_eq_none_of_lt hes hlt]
      exact .refl _
    · rename_i heq
      obtain rfl := Std.LawfulEqCmp.eq_of_compare heq
      have hgrown : listed (s.group, names ++ [s.name]) = listed (s.group, names) ++ [s] :=
        List.map_append
      rw [lookup_cons, if_pos rfl, Option.getD_some, List.flatMap_cons, List.flatMap_cons, hgrown,
        List.append_assoc]
      exact List.perm_middle
    · rename_i hgt
      have hne : s.group ≠ group := by
        intro hsame
        rw [hsame] at hgt
        simp at hgt
      rw [lookup_cons, if_neg hne, List.flatMap_cons, List.flatMap_cons]
      exact ((ih hes.of_cons).append_left _).trans List.perm_middle

theorem contents_add (groups : ServiceGroups) (s : Wire.Service) :
    (contents (groups.add s)).Perm (s :: contents groups) :=
  place_perm s groups.sorted

theorem contents_foldl_add (groups : ServiceGroups) (services : List Wire.Service) :
    (contents (services.foldl ServiceGroups.add groups)).Perm (services ++ contents groups) := by
  induction services generalizing groups with
  | nil => exact .refl _
  | cons s services ih =>
    have hadded : (services ++ contents (groups.add s)).Perm (services ++ s :: contents groups) :=
      (contents_add groups s).append_left services
    exact (ih (groups.add s)).trans (hadded.trans List.perm_middle)

theorem contents_ofWire (services : List Wire.Service) :
    (contents (ofWire services)).Perm services := by
  have h := contents_foldl_add .empty services
  have hempty : contents .empty = [] := rfl
  rwa [hempty, List.append_nil] at h

theorem map_name_contents (groups : ServiceGroups) :
    (contents groups).map (·.name) = groups.entries.flatMap (·.2) := by
  rw [contents, List.map_flatMap]
  refine List.flatMap_congr fun e _ => ?_
  rw [listed, List.map_map]
  exact List.map_id e.2

/-- The groups of a catalogue are those that occur in it, each with the names of its services in the
order of the catalogue and as often as they stand there. Together they hold the services of the
catalogue, each as often as the catalogue does. What else stands between the services of a group
does not matter: two catalogues have the same groups exactly when they have the same services in
each group, in the same order. -/
theorem catalogue_by_groups (services : List Wire.Service) :
    (∀ group, group ∈ (ofWire services).keys ↔ ∃ s ∈ services, s.group = group) ∧
    (∀ group names, (ofWire services).get? group = some names ↔
      names ≠ [] ∧ names = (services.filter fun s => s.group = group).map (·.name)) ∧
    ((ofWire services).entries.flatMap fun e => e.2.map (Wire.Service.mk e.1)).Perm services ∧
    ((ofWire services).entries.flatMap (·.2)).length = services.length ∧
    ∀ services' : List Wire.Service, ofWire services = ofWire services' ↔
      ∀ group, (services.filter fun s => s.group = group) =
        services'.filter fun s => s.group = group := by
  have hlists := lists_ofWire services
  have hcontents := contents_ofWire services
  refine ⟨fun group => hlists.mem_keys_iff, fun group names => hlists.get?_eq_some_iff, hcontents,
    ?_, fun services' => hlists.eq_iff (lists_ofWire services')⟩
  rw [← map_name_contents, List.length_map, hcontents.length_eq]

/-- One group ends before another begins, or they alternate. -/
example :
    let zebra : Wire.Service := ⟨"Quagga", "zebra"⟩
    let ospf : Wire.Service := ⟨"Quagga", "OSPFv2"⟩
    let route : Wire.Service := ⟨"Utility", "DefaultRoute"⟩
    (ofWire [zebra, route, ospf, zebra]).entries =
        [("Quagga", ["zebra", "OSPFv2", "zebra"]), ("Utility", ["DefaultRoute"])] ∧
      ofWire [route, zebra, ospf, zebra] = ofWire [zebra, route, ospf, zebra] := by
  decide

end EmuControl.ServiceGroups
