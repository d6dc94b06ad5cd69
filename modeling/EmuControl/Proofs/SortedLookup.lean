import EmuControl.Proofs.SortedOrder

/-!
# What maps say about a key

A map has an entry exactly when it answers the look-up of its key with it. So a map is determined by
its answers, and each operation on maps is described by what it does to them.
-/
namespace EmuControl.SortedMap

open Std

variable {κ ν μ : Type} [Ord κ]

@[simp] theorem get?_empty (k : κ) : (empty : SortedMap κ ν).get? k = none := rfl

section Oriented

variable [LawfulEqOrd κ]

theorem lookup_cons (k : κ) (e : κ × ν) (es : List (κ × ν)) [DecidableEq κ] :
    lookup k (e :: es) = if k = e.1 then some e.2 else lookup k es := by
  simp only [lookup, LawfulEqCmp.compare_eq_iff_eq]

theorem lookup_eq_none_of_not_mem {k : κ} {es : List (κ × ν)} (h : k ∉ es.map (·.1)) :
    lookup k es = none := by
  classical
  induction es with
  | nil => rfl
  | cons e es ih =>
    rw [List.map_cons, List.mem_cons, not_or] at h
    rw [lookup_cons, if_neg h.1, ih h.2]

theorem lookup_append (k : κ) (es es' : List (κ × ν)) :
    lookup k (es ++ es') = (lookup k es).or (lookup k es') := by
  classical
  induction es with
  | nil => rfl
  | cons e es ih =>
    rw [List.cons_append, lookup_cons, lookup_cons, ih]
    split <;> rfl

theorem not_mem_of_lookup_eq_none {k : κ} {v : ν} {es : List (κ × ν)} (h : lookup k es = none) :
    (k, v) ∉ es := by
  intro hmem
  obtain ⟨before, rest, rfl⟩ := List.append_of_mem hmem
  classical
  rw [lookup_append, Option.or_eq_none_iff, lookup_cons, if_pos rfl] at h
  cases h.2

theorem lookup_eq_none_iff {k : κ} {es : List (κ × ν)} :
    lookup k es = none ↔ k ∉ es.map (·.1) := by
  refine ⟨fun h hmem => ?_, lookup_eq_none_of_not_mem⟩
  obtain ⟨⟨_, v⟩, he, rfl⟩ := List.mem_map.mp hmem
  exact not_mem_of_lookup_eq_none h he

/-- The first entry of a key counts. -/
theorem lookup_eq_some_iff {k : κ} {v : ν} {es : List (κ × ν)} :
    lookup k es = some v ↔
      ∃ before after, es = before ++ (k, v) :: after ∧ k ∉ before.map (·.1) := by
  classical
  constructor
  · intro h
    induction es with
    | nil => cases h
    | cons e es ih =>
      rw [lookup_cons] at h
      split at h
      · rename_i hk
        cases h
        subst hk
        exact ⟨[], es, rfl, List.not_mem_nil⟩
      · rename_i hk
        obtain ⟨before, after, rfl, hbefore⟩ := ih h
        refine ⟨e :: before, after, rfl, ?_⟩
        rw [List.map_cons, List.mem_cons, not_or]
        exact ⟨hk, hbefore⟩
  · intro h
    obtain ⟨before, after, rfl, hbefore⟩ := h
    rw [lookup_append, lookup_eq_none_of_not_mem hbefore, Option.none_or, lookup_cons, if_pos rfl]

theorem mem_of_lookup {k : κ} {v : ν} {es : List (κ × ν)} (h : lookup k es = some v) :
    (k, v) ∈ es := by
  obtain ⟨before, after, rfl, -⟩ := lookup_eq_some_iff.mp h
  exact List.mem_append_cons_self

theorem lookup_of_mem [OrientedOrd κ] {k : κ} {v : ν} {es : List (κ × ν)}
    (hes : es.Pairwise fun a b => compare a.1 b.1 = .lt) (h : (k, v) ∈ es) :
    lookup k es = some v := by
  classical
  induction es with
  | nil => cases h
  | cons e es ih =>
    rw [lookup_cons]
    rcases List.mem_cons.mp h with rfl | h
    · exact if_pos rfl
    · have hlt : compare e.1 k = .lt := List.rel_of_pairwise_cons hes h
      have hne : k ≠ e.1 := by
        rintro rfl
        simp at hlt
      rw [if_neg hne]
      exact ih hes.of_cons h

theorem get?_eq_some_iff [OrientedOrd κ] {m : SortedMap κ ν} {k : κ} {v : ν} :
    m.get? k = some v ↔ (k, v) ∈ m.entries :=
  ⟨mem_of_lookup, lookup_of_mem m.sorted⟩

/-- Entries with different keys can be looked up from either end. -/
theorem lookup_reverse [OrientedOrd κ] {es : List (κ × ν)}
    (hes : es.Pairwise fun a b => compare a.1 b.1 = .lt) (k : κ) :
    lookup k es.reverse = lookup k es := by
  cases h : lookup k es.reverse with
  | some v => exact (lookup_of_mem hes (List.mem_reverse.mp (mem_of_lookup h))).symm
  | none =>
    refine (Option.eq_none_iff_forall_ne_some.mpr fun v hv => ?_).symm
    exact not_mem_of_lookup_eq_none h (List.mem_reverse.mpr (mem_of_lookup hv))

theorem lookup_map (f : κ → ν → μ) (k : κ) (es : List (κ × ν)) :
    lookup k (es.map fun e => (e.1, f e.1 e.2)) = (lookup k es).map (f k) := by
  classical
  induction es with
  | nil => rfl
  | cons e es ih =>
    rw [List.map_cons, lookup_cons, lookup_cons, ih]
    split
    · rename_i hk
      rw [hk]
      rfl
    · rfl

@[simp] theorem get?_mapValues (f : κ → ν → μ) (m : SortedMap κ ν) (k : κ) :
    (m.mapValues f).get? k = (m.get? k).map (f k) :=
  lookup_map f k m.entries

end Oriented

variable [TransOrd κ] [LawfulEqOrd κ]

/-- What is less than the first key is less than all others. -/
theorem lookup_eq_none_of_lt {k : κ} {e : κ × ν} {es : List (κ × ν)}
    (hes : (e :: es).Pairwise fun a b => compare a.1 b.1 = .lt) (h : compare k e.1 = .lt) :
    lookup k (e :: es) = none := by
  apply lookup_eq_none_of_not_mem
  intro hmem
  obtain ⟨e', he', rfl⟩ := List.mem_map.mp hmem
  have hless : compare e'.1 e'.1 = .lt := by
    rcases List.mem_cons.mp he' with rfl | he'
    · exact h
    · exact TransCmp.lt_trans h (List.rel_of_pairwise_cons hes he')
  simp at hless

theorem get?_filter (p : κ → ν → Bool) (m : SortedMap κ ν) (k : κ) :
    (m.filter p).get? k = (m.get? k).filter (p k) := by
  ext v
  have h : (m.filter p).get? k = some v ↔ (k, v) ∈ m.entries.filter fun e => p e.1 e.2 :=
    get?_eq_some_iff
  rw [h, List.mem_filter, Option.filter_eq_some_iff, get?_eq_some_iff]

theorem get?_erase [DecidableEq κ] (m : SortedMap κ ν) (k k' : κ) :
    (m.erase k).get? k' = if k' = k then none else m.get? k' := by
  rw [erase, get?_filter]
  by_cases hk : k' = k
  · subst hk
    rw [if_pos rfl]
    simp
  · have hne : (compare k k' != .eq) = true := by
      rw [bne_iff_ne]
      exact fun h => hk (LawfulEqCmp.eq_of_compare h).symm
    rw [if_neg hk, hne]
    cases m.get? k' <;> rfl

theorem get?_insert [DecidableEq κ] (m : SortedMap κ ν) (k k' : κ) (v : ν) :
    (m.insert k v).get? k' = if k' = k then some v else m.get? k' := by
  by_cases hk : k' = k
  · subst hk
    rw [if_pos rfl, get?_insert_self]
  · rw [if_neg hk, get?_insert_of_ne m v hk]

/-- Of the entries that are put in, the last one of a key counts. -/
theorem get?_insertAll (m : SortedMap κ ν) (es : List (κ × ν)) (k : κ) :
    (m.insertAll es).get? k = (lookup k es.reverse).or (m.get? k) := by
  classical
  induction es generalizing m with
  | nil => rfl
  | cons e es ih =>
    change ((m.insert e.1 e.2).insertAll es).get? k = _
    rw [ih, get?_insert, List.reverse_cons, lookup_append, lookup_cons, Option.or_assoc]
    split <;> rfl

/-- Two maps that answer every look-up alike are equal. -/
theorem ext_get? {a b : SortedMap κ ν} (h : ∀ k, a.get? k = b.get? k) : a = b := by
  have hirrefl : ∀ e : κ × ν, ¬ compare e.1 e.1 = .lt := by simp
  have hnodup : ∀ m : SortedMap κ ν, m.entries.Nodup := fun m =>
    m.sorted.imp fun {x y} hlt => by
      rintro rfl
      exact hirrefl x hlt
  have hmem : ∀ e, e ∈ a.entries ↔ e ∈ b.entries := fun e => by
    rw [← get?_eq_some_iff (k := e.1) (v := e.2), ← get?_eq_some_iff (k := e.1) (v := e.2), h]
  have hperm := (List.perm_ext_iff_of_nodup (hnodup a) (hnodup b)).mpr hmem
  apply SortedMap.ext
  refine hperm.eq_of_pairwise (fun x y _ _ hxy hyx => ?_) a.sorted b.sorted
  exact absurd (TransCmp.lt_trans hxy hyx) (hirrefl x)

end EmuControl.SortedMap
