import EmuControl.Proofs.WordSearch

/-!
# Words that do not overlap

A word is clear of a piece of text if no occurrence of it begins there, whatever follows the piece.
Two words that are clear of each other never overlap, so when one of them stands in a text the other
can only stand on its left or on its right.

`Spaced` says that words stand in a text in a given order and at least some distances apart, which
is what a pattern of words and gaps asks for. A piece that no word of a pattern overlaps with can be
exchanged for another, and the pattern matches afterwards if it did before. Likewise such a piece is
passed over when the first occurrence of a word is replaced.
-/
namespace EmuControl.Text

/-- No occurrence of the word begins in the piece. -/
def Clear (word : List Char) : (piece : List Char) → Prop
  | [] => True
  | c :: piece => ¬ word <+: c :: piece ∧ ¬ c :: piece <+: word ∧ Clear word piece

instance decidableClear (word : List Char) : (piece : List Char) → Decidable (Clear word piece)
  | [] => isTrue trivial
  | _ :: piece =>
    have := decidableClear word piece
    inferInstanceAs (Decidable (_ ∧ _ ∧ _))

/-- Neither word begins in the other. -/
def Apart (word piece : List Char) : Prop :=
  Clear word piece ∧ Clear piece word

instance (word piece : List Char) : Decidable (Apart word piece) :=
  inferInstanceAs (Decidable (_ ∧ _))

theorem clear_append_of_not_mem {first : Char} {word left piece : List Char} (h : first ∉ left)
    (hpiece : Clear (first :: word) piece) : Clear (first :: word) (left ++ piece) := by
  induction left with
  | nil => exact hpiece
  | cons c left ih =>
    rw [List.mem_cons, not_or] at h
    rw [List.cons_append]
    refine ⟨fun hhead => ?_, fun hhead => ?_, ih h.2⟩
    · exact h.1 (List.cons_prefix_cons.mp hhead).1
    · exact h.1 (List.cons_prefix_cons.mp hhead).1.symm

theorem clear_of_not_mem {first : Char} {word piece : List Char} (h : first ∉ piece) :
    Clear (first :: word) piece := by
  have hclear : Clear (first :: word) (piece ++ []) := clear_append_of_not_mem h trivial
  rwa [List.append_nil] at hclear

/-- A search goes on past a place where the word does not stand. -/
theorem replaceFirst_cons {word cs : List Char} {c : Char} (h : ¬ word <+: c :: cs)
    (replacement : List Char) :
    replaceFirst word replacement (c :: cs) = c :: replaceFirst word replacement cs := by
  have hnone : after? word (c :: cs) = none := by
    refine Option.eq_none_iff_forall_ne_some.mpr fun rest hrest => ?_
    exact h ⟨rest, (after?_eq_some_iff.mp hrest).symm⟩
  unfold replaceFirst
  rw [cut?, hnone]
  cases cut? word cs <;> rfl

/-- At the place where the word stands, it is replaced. -/
theorem replaceFirst_append_self {word : List Char} (hword : word ≠ [])
    (replacement cs : List Char) :
    replaceFirst word replacement (word ++ cs) = replacement ++ cs := by
  obtain ⟨c, tail, rfl⟩ := List.exists_cons_of_ne_nil hword
  have hfound : after? (c :: tail) (c :: (tail ++ cs)) = some cs := after?_eq_some_iff.mpr rfl
  unfold replaceFirst
  rw [List.cons_append, cut?, hfound]
  rfl

namespace Clear

variable {word piece : List Char}

theorem not_at_head {c : Char} (h : Clear word (c :: piece)) (rest : List Char) :
    ¬ word <+: c :: piece ++ rest := by
  intro hword
  rcases List.prefix_or_prefix_of_prefix hword (List.prefix_append (c :: piece) rest) with hp | hp
  · exact h.1 hp
  · exact h.2.1 hp

/-- An occurrence behind the beginning of a piece is behind the piece. -/
theorem append_eq (hclear : Clear word piece) {before rest right : List Char}
    (h : before ++ word ++ rest = piece ++ right) :
    ∃ between, before = piece ++ between ∧ right = between ++ word ++ rest := by
  induction piece generalizing before with
  | nil => exact ⟨before, rfl, h.symm⟩
  | cons c piece ih =>
    cases before with
    | nil => exact absurd ⟨rest, h⟩ (hclear.not_at_head right)
    | cons b before =>
      obtain ⟨rfl, htail⟩ := List.cons.inj h
      obtain ⟨between, rfl, hright⟩ := ih hclear.2.2 htail
      exact ⟨between, rfl, hright⟩

/-- A piece that the word is clear of is passed over. -/
theorem replaceFirst_append (hclear : Clear word piece) (replacement cs : List Char) :
    replaceFirst word replacement (piece ++ cs) = piece ++ replaceFirst word replacement cs := by
  induction piece with
  | nil => rfl
  | cons c piece ih =>
    have hnot : ¬ word <+: c :: (piece ++ cs) := hclear.not_at_head cs
    rw [List.cons_append, replaceFirst_cons hnot, ih hclear.2.2, List.cons_append]

end Clear

/-- Words that do not overlap stand side by side. -/
theorem Apart.append_eq {word piece before rest left right : List Char} (hapart : Apart word piece)
    (h : before ++ word ++ rest = left ++ piece ++ right) :
    (∃ between, left = before ++ word ++ between ∧ rest = between ++ piece ++ right) ∨
      ∃ between, before = left ++ piece ++ between ∧ right = between ++ word ++ rest := by
  rw [List.append_assoc, List.append_assoc] at h
  rcases List.append_eq_append_iff.mp h with ⟨gap, hleft, hword⟩ | ⟨gap, hbefore, hpiece⟩
  · rw [← List.append_assoc gap] at hword
    obtain ⟨between, rfl, hrest⟩ := hapart.2.append_eq hword.symm
    exact .inl ⟨between, by rw [hleft, List.append_assoc], hrest⟩
  · rw [← List.append_assoc gap] at hpiece
    obtain ⟨between, rfl, hright⟩ := hapart.1.append_eq hpiece.symm
    exact .inr ⟨between, by rw [hbefore, List.append_assoc], hright⟩

/-- The words stand in the text in their order. Before each of them there are at least as many
characters as its number says, counted from the word before it, and `behind` or more follow the last
one. -/
def Spaced (behind : Nat) : (words : List (Nat × List Char)) → List Char → Prop
  | [], cs => behind ≤ cs.length
  | (least, word) :: words, cs =>
    ∃ gap rest, least ≤ gap.length ∧ cs = gap ++ word ++ rest ∧ Spaced behind words rest

namespace Spaced

variable {behind : Nat} {words : List (Nat × List Char)}

/-- A piece that overlaps with none of the words may be exchanged for any other that is as long as
the gaps have to be. -/
theorem exchange {before old new rest : List Char} (hbehind : behind ≤ new.length)
    (hwords : ∀ w ∈ words, w.1 ≤ new.length ∧ Apart w.2 old)
    (h : Spaced behind words (before ++ old ++ rest)) :
    Spaced behind words (before ++ new ++ rest) := by
  induction words generalizing before with
  | nil =>
    change behind ≤ (before ++ new ++ rest).length
    simp only [List.length_append]
    omega
  | cons w words ih =>
    rw [List.forall_mem_cons] at hwords
    obtain ⟨⟨hleast, hapart⟩, hwords⟩ := hwords
    obtain ⟨gap, tail, hgap, hsplit, htail⟩ := h
    rcases hapart.append_eq hsplit.symm with ⟨between, rfl, rfl⟩ | ⟨between, rfl, rfl⟩
    · refine ⟨gap, between ++ new ++ rest, hgap, ?_, ih hwords htail⟩
      simp only [List.append_assoc]
    · refine ⟨before ++ new ++ between, tail, ?_, ?_, htail⟩
      · simp only [List.length_append]
        omega
      · simp only [List.append_assoc]

/-- At the head of a text only the first word counts. -/
theorem exchange_head {least : Nat} {word old new rest : List Char} (hleast : least ≤ new.length)
    (hclear : Clear word old) (h : Spaced behind ((least, word) :: words) (old ++ rest)) :
    Spaced behind ((least, word) :: words) (new ++ rest) := by
  obtain ⟨gap, tail, -, hsplit, htail⟩ := h
  obtain ⟨between, -, rfl⟩ := hclear.append_eq hsplit.symm
  refine ⟨new ++ between, tail, ?_, ?_, htail⟩
  · simp only [List.length_append]
    omega
  · simp only [List.append_assoc]

/-- What stands in a text after a replacement stood there before. -/
theorem of_replaceFirst {old new cs : List Char} (hbehind : behind ≤ old.length)
    (hwords : ∀ w ∈ words, w.1 ≤ old.length ∧ Apart w.2 new)
    (h : Spaced behind words (replaceFirst old new cs)) : Spaced behind words cs := by
  unfold replaceFirst at h
  split at h
  · rename_i before rest hcut
    rw [eq_of_cut? hcut]
    exact h.exchange hbehind hwords
  · exact h

theorem replaceFirst {old new cs : List Char} (hbehind : behind ≤ new.length)
    (hwords : ∀ w ∈ words, w.1 ≤ new.length ∧ Apart w.2 old) (h : Spaced behind words cs) :
    Spaced behind words (replaceFirst old new cs) := by
  unfold Text.replaceFirst
  split
  · rename_i before rest hcut
    rw [eq_of_cut? hcut] at h
    exact h.exchange hbehind hwords
  · exact h

end Spaced

/-- A word by itself is spaced wherever it stands. -/
theorem spaced_singleton_iff {word cs : List Char} : Spaced 0 [(0, word)] cs ↔ word <:+: cs := by
  constructor
  · rintro ⟨gap, rest, -, rfl, -⟩
    exact ⟨gap, rest, rfl⟩
  · rintro ⟨gap, rest, rfl⟩
    exact ⟨gap, rest, Nat.zero_le _, rfl, Nat.zero_le _⟩

theorem occurs_iff_isInfix {word cs : List Char} : occurs word cs = true ↔ word <:+: cs := by
  constructor
  · intro h
    obtain ⟨⟨before, rest⟩, hcut⟩ := Option.isSome_iff_exists.mp h
    exact ⟨before, rest, (eq_of_cut? hcut).symm⟩
  · rintro ⟨before, rest, rfl⟩
    exact occurs_append word before rest

end EmuControl.Text
