/-!
# Maps in ascending order of their keys

A map is the list of its entries in strictly ascending order of the keys, so two maps that answer
every look-up alike are equal, and the order of the entries is part of the value. Text keys are
ordered by code point, which is also the order of their UTF-8 bytes.
-/
namespace EmuControl

open Std

/-- Entries in strictly ascending order of their keys. -/
structure SortedMap (κ : Type) [Ord κ] (ν : Type) where
  entries : List (κ × ν)
  sorted : entries.Pairwise fun a b => compare a.1 b.1 = .lt

namespace SortedMap

variable {κ ν μ : Type} [Ord κ]

/-- The value that a list of entries gives a key. -/
def lookup (k : κ) : List (κ × ν) → Option ν
  | [] => none
  | (k', v) :: rest => if compare k k' = .eq then some v else lookup k rest

/-- Puts an entry in its place, or in the place of the entry that has its key. -/
def place (k : κ) (v : ν) : List (κ × ν) → List (κ × ν)
  | [] => [(k, v)]
  | (k', v') :: rest =>
    match compare k k' with
    | .lt => (k, v) :: (k', v') :: rest
    | .eq => (k, v) :: rest
    | .gt => (k', v') :: place k v rest

theorem mem_place {k : κ} {v : ν} {e : κ × ν} {es : List (κ × ν)} (h : e ∈ place k v es) :
    e = (k, v) ∨ e ∈ es := by
  induction es with
  | nil => simpa [place] using h
  | cons hd tl ih =>
    obtain ⟨k', v'⟩ := hd
    rw [place] at h
    split at h
    · simpa using h
    · rcases List.mem_cons.1 h with h | h
      · exact .inl h
      · exact .inr (List.mem_cons_of_mem _ h)
    · rcases List.mem_cons.1 h with h | h
      · exact .inr (by simp [h])
      · exact (ih h).imp id (List.mem_cons_of_mem _)

theorem sorted_place [TransOrd κ] [LawfulEqOrd κ] (k : κ) (v : ν) {es : List (κ × ν)}
    (h : es.Pairwise fun a b => compare a.1 b.1 = .lt) :
    (place k v es).Pairwise fun a b => compare a.1 b.1 = .lt := by
  induction es with
  | nil => simp [place]
  | cons hd tl ih =>
    obtain ⟨k', v'⟩ := hd
    have hd_lt : ∀ e ∈ tl, compare k' e.1 = .lt := fun e he => List.rel_of_pairwise_cons h he
    rw [place]
    split
    · rename_i hk
      refine List.Pairwise.cons (fun e he => ?_) h
      rcases List.mem_cons.1 he with rfl | he
      · exact hk
      · exact TransCmp.lt_trans hk (hd_lt e he)
    · rename_i hk
      obtain rfl := LawfulEqCmp.eq_of_compare hk
      exact List.Pairwise.cons (fun e he => hd_lt e he) h.of_cons
    · rename_i hk
      refine List.Pairwise.cons (fun e he => ?_) (ih h.of_cons)
      rcases mem_place he with rfl | he
      · exact OrientedCmp.lt_of_gt hk
      · exact hd_lt e he

/-- The map without entries. -/
def empty : SortedMap κ ν := ⟨[], .nil⟩

instance : EmptyCollection (SortedMap κ ν) := ⟨empty⟩

instance : Inhabited (SortedMap κ ν) := ⟨empty⟩

def get? (m : SortedMap κ ν) (k : κ) : Option ν :=
  lookup k m.entries

def contains (m : SortedMap κ ν) (k : κ) : Bool :=
  (m.get? k).isSome

def keys (m : SortedMap κ ν) : List κ :=
  m.entries.map (·.1)

def isEmpty (m : SortedMap κ ν) : Bool :=
  m.entries.isEmpty

def size (m : SortedMap κ ν) : Nat :=
  m.entries.length

/-- Every value changed, every key kept. -/
def mapValues (f : κ → ν → μ) (m : SortedMap κ ν) : SortedMap κ μ :=
  ⟨m.entries.map fun e => (e.1, f e.1 e.2), m.sorted.map _ fun _ _ h => h⟩

/-- The entries that pass a test. -/
def filter (p : κ → ν → Bool) (m : SortedMap κ ν) : SortedMap κ ν :=
  ⟨m.entries.filter fun e => p e.1 e.2, m.sorted.filter _⟩

/-- Without the entry of a key. -/
def erase (m : SortedMap κ ν) (k : κ) : SortedMap κ ν :=
  m.filter fun k' _ => compare k k' != .eq

/-- Two maps with the same entries are equal. -/
@[ext]
theorem ext {a b : SortedMap κ ν} (h : a.entries = b.entries) : a = b := by
  cases a; cases b; cases h; rfl

instance [DecidableEq κ] [DecidableEq ν] : DecidableEq (SortedMap κ ν) := fun a b =>
  if h : a.entries = b.entries then isTrue (ext h) else isFalse fun e => h (e ▸ rfl)

instance [Repr κ] [Repr ν] : Repr (SortedMap κ ν) := ⟨fun m n => reprPrec m.entries n⟩

section Lawful

variable [TransOrd κ] [LawfulEqOrd κ]

/-- With the entry `k`, `v`, in place of any entry that `k` had. -/
def insert (m : SortedMap κ ν) (k : κ) (v : ν) : SortedMap κ ν :=
  ⟨place k v m.entries, sorted_place k v m.sorted⟩

/-- The entries of `b` put into `a`, in order. -/
def insertAll (a : SortedMap κ ν) (es : List (κ × ν)) : SortedMap κ ν :=
  es.foldl (fun m e => m.insert e.1 e.2) a

/-- The map of a list of entries; of two entries with one key the later one counts. -/
def ofList (es : List (κ × ν)) : SortedMap κ ν :=
  empty.insertAll es

theorem get?_insert_self (m : SortedMap κ ν) (k : κ) (v : ν) : (m.insert k v).get? k = some v := by
  simp only [get?, insert]
  induction m.entries with
  | nil => simp [place, lookup]
  | cons hd tl ih =>
    rw [place]
    split
    · simp [lookup]
    · simp [lookup]
    · rename_i hk
      simp [lookup, hk, ih]

theorem get?_insert_of_ne (m : SortedMap κ ν) {k k' : κ} (v : ν) (h : k' ≠ k) :
    (m.insert k v).get? k' = m.get? k' := by
  have apart : ¬ compare k' k = .eq := fun e => h (LawfulEqCmp.eq_of_compare e)
  simp only [get?, insert]
  induction m.entries with
  | nil => simp [place, lookup, apart]
  | cons hd tl ih =>
    rw [place]
    split
    · simp [lookup, apart]
    · rename_i hk
      obtain rfl := LawfulEqCmp.eq_of_compare hk
      simp [lookup, apart]
    · simp only [lookup, ih]

end Lawful

end SortedMap

/-- A set is a map whose entries carry nothing but their key. -/
abbrev SortedSet (κ : Type) [Ord κ] := SortedMap κ Unit

namespace SortedSet

variable {κ : Type} [Ord κ]

/-- The members in ascending order. -/
def toList (s : SortedSet κ) : List κ := s.keys

/-- The members of a list, in ascending order and each once. -/
def ofList [TransOrd κ] [LawfulEqOrd κ] (xs : List κ) : SortedSet κ :=
  SortedMap.ofList (xs.map fun x => (x, ()))

end SortedSet

end EmuControl
