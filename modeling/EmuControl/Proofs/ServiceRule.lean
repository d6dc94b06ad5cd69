import EmuControl.Proofs.ServiceImport
import EmuControl.Proofs.WordOverlap
import Mathlib.Data.List.TakeWhile

/-!
# Which lines a rule applies to

Two of the rules for a line look at its head only. `IsAttribute` and `IsDirectories` say of which
lines they are, and all other lines go through them unchanged.

Neither of them makes or breaks an occurrence of a word that is `IsHeadSafe`, nor a pattern that
begins with such a word.
-/
namespace EmuControl.ServiceUpdate

open EmuControl.Text

/-- One blank or more. -/
def IsIndent (cs : List Char) : Prop :=
  cs ≠ [] ∧ ∀ c ∈ cs, isBlank c = true

/-- The rule for attributes applies to the line. -/
def IsAttribute (cs : List Char) : Prop :=
  ∃ indent c rest, IsIndent indent ∧ isLowerLetter c = true ∧ cs = indent ++ '_' :: c :: rest

/-- The rule for directories applies to the line. -/
def IsDirectories (cs : List Char) : Prop :=
  ∃ indent rest, IsIndent indent ∧ cs = indent ++ "dirs".toList ++ rest

theorem isBlank_of_isLowerLetter {c : Char} (h : isLowerLetter c = true) : isBlank c = false := by
  simp only [isLowerLetter, Bool.and_eq_true, decide_eq_true_eq] at h
  have hlow : 97 ≤ c.toNat := h.1
  have hhigh : c.toNat ≤ 122 := h.2
  simp only [isBlank, Bool.or_eq_false_iff, Bool.and_eq_false_iff, decide_eq_false_iff_not,
    beq_eq_false_iff_ne]
  omega

theorem splitIndent_indented {indent tail : List Char} (hindent : IsIndent indent)
    (htail : tail.head?.any (!isBlank ·) = true) :
    splitIndent (indent ++ tail) = (indent, tail) := by
  cases tail with
  | nil => cases htail
  | cons c rest =>
    have hc : isBlank c = false := by simpa using htail
    unfold splitIndent
    rw [List.takeWhile_append_of_pos hindent.2, List.dropWhile_append_of_pos hindent.2]
    simp [hc]

theorem isIndent_of_splitIndent {cs indent rest : List Char} {b : Char}
    (h : splitIndent cs = (b :: indent, rest)) : IsIndent (b :: indent) := by
  have hindent : cs.takeWhile isBlank = b :: indent := congrArg Prod.fst h
  refine ⟨List.cons_ne_nil b indent, fun c hc => ?_⟩
  rw [← hindent] at hc
  exact List.mem_takeWhile_imp hc

/-- Indentation ends at the same place, however the line is put together. -/
theorem indent_append_inj {indent indent' tail tail' : List Char} (hindent : IsIndent indent)
    (hindent' : IsIndent indent') (htail : tail.head?.any (!isBlank ·) = true)
    (htail' : tail'.head?.any (!isBlank ·) = true) (h : indent ++ tail = indent' ++ tail') :
    tail = tail' := by
  have hsplit := congrArg splitIndent h
  rw [splitIndent_indented hindent htail, splitIndent_indented hindent' htail'] at hsplit
  exact (Prod.mk.inj hsplit).2

/-- The rule for attributes takes an underscore away, or it does not apply. -/
theorem updateAttribute_cases (cs : List Char) :
    (¬ IsAttribute cs ∧ updateAttribute cs = cs) ∨
      ∃ indent c rest, IsIndent indent ∧ isLowerLetter c = true ∧
        cs = indent ++ '_' :: c :: rest ∧ updateAttribute cs = indent ++ c :: rest := by
  by_cases happlies : IsAttribute cs
  · obtain ⟨indent, c, rest, hindent, hc, rfl⟩ := happlies
    refine .inr ⟨indent, c, rest, hindent, hc, rfl, ?_⟩
    obtain ⟨b, indent, rfl⟩ := List.exists_cons_of_ne_nil hindent.1
    unfold updateAttribute
    rw [splitIndent_indented hindent rfl]
    exact if_pos hc
  · refine .inl ⟨happlies, ?_⟩
    unfold updateAttribute
    split
    · rename_i b indent c rest hsplit
      split
      · rename_i hc
        refine absurd ⟨b :: indent, c, rest, isIndent_of_splitIndent hsplit, hc, ?_⟩ happlies
        have hcs := splitIndent_append cs
        rw [hsplit] at hcs
        exact hcs.symm
      · rfl
    · rfl

/-- The rule for directories writes the word out, or it does not apply. -/
theorem updateDirectories_cases (cs : List Char) :
    (¬ IsDirectories cs ∧ updateDirectories cs = cs) ∨
      ∃ indent rest, IsIndent indent ∧ cs = indent ++ "dirs".toList ++ rest ∧
        updateDirectories cs = indent ++ "directories".toList ++ rest := by
  by_cases happlies : IsDirectories cs
  · obtain ⟨indent, rest, hindent, rfl⟩ := happlies
    refine .inr ⟨indent, rest, hindent, rfl, ?_⟩
    obtain ⟨b, indent, rfl⟩ := List.exists_cons_of_ne_nil hindent.1
    have hsplit : splitIndent (b :: indent ++ "dirs".toList ++ rest) =
        (b :: indent, "dirs".toList ++ rest) := by
      rw [List.append_assoc]
      exact splitIndent_indented hindent rfl
    have hafter : after? "dirs".toList ("dirs".toList ++ rest) = some rest :=
      after?_eq_some_iff.mpr rfl
    unfold updateDirectories
    rw [hsplit]
    dsimp only
    rw [hafter]
  · refine .inl ⟨happlies, ?_⟩
    unfold updateDirectories
    split
    · rename_i b indent rest hsplit
      split
      · rename_i behind hafter
        refine absurd ⟨b :: indent, behind, isIndent_of_splitIndent hsplit, ?_⟩ happlies
        have hcs := splitIndent_append cs
        rw [hsplit, after?_eq_some_iff.mp hafter] at hcs
        rw [← hcs, List.append_assoc]
      · rfl
    · rfl

/-! Words that the rules leave alone -/

/-- No change at the head of a line makes or breaks an occurrence of the word. -/
def IsHeadSafe (word : List Char) : Prop :=
  word.head?.any (fun c => !isBlank c && c != '_') = true ∧
    Clear word "dirs".toList ∧ Clear word "directories".toList

instance (word : List Char) : Decidable (IsHeadSafe word) :=
  inferInstanceAs (Decidable (_ ∧ _ ∧ _))

namespace IsHeadSafe

variable {word : List Char}

theorem exists_first (h : IsHeadSafe word) :
    ∃ first rest, word = first :: rest ∧ isBlank first = false ∧ first ≠ '_' := by
  obtain ⟨hfirst, -, -⟩ := h
  cases word with
  | nil => cases hfirst
  | cons first rest =>
    simp only [List.head?_cons, Option.any_some, Bool.and_eq_true, Bool.not_eq_true', bne_iff_ne]
      at hfirst
    exact ⟨first, rest, rfl, hfirst⟩

theorem clear_append (h : IsHeadSafe word) {indent piece : List Char} (hindent : IsIndent indent)
    (hpiece : Clear word piece) : Clear word (indent ++ piece) := by
  obtain ⟨first, rest, rfl, hblank, -⟩ := h.exists_first
  refine clear_append_of_not_mem (fun hmem => ?_) hpiece
  rw [hindent.2 first hmem] at hblank
  cases hblank

variable {behind least : Nat} {words : List (Nat × List Char)}

theorem updateAttribute_iff (h : IsHeadSafe word) (hleast : least ≤ 1) (cs : List Char) :
    Spaced behind ((least, word) :: words) (updateAttribute cs) ↔
      Spaced behind ((least, word) :: words) cs := by
  rcases updateAttribute_cases cs with ⟨-, hsame⟩ | ⟨indent, c, rest, hindent, -, hcs, hupdated⟩
  · rw [hsame]
  · obtain ⟨first, tail, rfl, hblank, hunderscore⟩ := h.exists_first
    have hlength : 1 ≤ indent.length := List.length_pos_of_ne_nil hindent.1
    have hold : cs = (indent ++ ['_']) ++ c :: rest := by simp [hcs]
    have hmark : Clear (first :: tail) ['_'] := clear_of_not_mem (by simpa using hunderscore)
    have hindented : Clear (first :: tail) (indent ++ []) := h.clear_append hindent trivial
    rw [List.append_nil] at hindented
    rw [hupdated, hold]
    constructor
    · exact Spaced.exchange_head (by simp only [List.length_append]; omega) hindented
    · exact Spaced.exchange_head (by omega) (h.clear_append hindent hmark)

theorem updateDirectories_iff (h : IsHeadSafe word) (hleast : least ≤ 1) (cs : List Char) :
    Spaced behind ((least, word) :: words) (updateDirectories cs) ↔
      Spaced behind ((least, word) :: words) cs := by
  rcases updateDirectories_cases cs with ⟨-, hsame⟩ | ⟨indent, rest, hindent, hcs, hupdated⟩
  · rw [hsame]
  · have hlength : 1 ≤ indent.length := List.length_pos_of_ne_nil hindent.1
    rw [hupdated, hcs]
    constructor
    · exact Spaced.exchange_head (by simp only [List.length_append]; omega)
        (h.clear_append hindent h.2.2)
    · exact Spaced.exchange_head (by simp only [List.length_append]; omega)
        (h.clear_append hindent h.2.1)

end IsHeadSafe

/-- What all signatures have in common. -/
structure IsSignature (s : List Char × List Char) : Prop where
  oldFirst : s.1.head? = some 'd'
  newFirst : s.2.head? = some 'd'
  newNonempty : 0 < s.2.length
  shrinks : s.2.length < s.1.length
  headSafe : IsHeadSafe s.1
  apartDirs : Apart "dirs".toList s.2

theorem signatures_shape : ∀ s ∈ signatures, IsSignature s := by
  have h : ∀ s ∈ signatures, s.1.head? = some 'd' ∧ s.2.head? = some 'd' ∧ 0 < s.2.length ∧
      s.2.length < s.1.length ∧ IsHeadSafe s.1 ∧ Apart "dirs".toList s.2 := by
    unfold signatures IsHeadSafe
    repeat rw [String.toList_ofList]
    decide +kernel
  intro s hs
  obtain ⟨oldFirst, newFirst, newNonempty, shrinks, headSafe, apartDirs⟩ := h s hs
  exact ⟨oldFirst, newFirst, newNonempty, shrinks, headSafe, apartDirs⟩

end EmuControl.ServiceUpdate
