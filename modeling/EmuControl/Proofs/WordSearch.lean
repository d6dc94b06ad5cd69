import EmuControl.Text.Search

/-!
# Where words stand in a text

A search stops at the first occurrence of a word. Whether it leads anywhere does not depend on that:
from any other occurrence, what follows is also at the end of what follows the first one. So the
searches of `Text.Search` can be described by ways to split a text.

A character that is not in a word parts a text for it: every occurrence is on one side. The same is
true of a longer piece of text that cannot overlap with the word.
-/
namespace EmuControl.Text

/-- What follows the first occurrence of a word ends with what follows any other. -/
theorem exists_cut?_append (word before rest : List Char) :
    ∃ head skipped, cut? word (before ++ word ++ rest) = some (head, skipped ++ rest) := by
  induction before with
  | nil =>
    have hfound : after? word (word ++ rest) = some rest := after?_eq_some_iff.mpr rfl
    refine ⟨[], [], ?_⟩
    rw [List.nil_append]
    cases hcs : word ++ rest with
    | nil =>
      rw [hcs] at hfound
      rw [cut?, hfound]
      rfl
    | cons c cs =>
      rw [hcs] at hfound
      rw [cut?, hfound]
      rfl
  | cons b before ih =>
    rw [List.cons_append, List.cons_append, cut?]
    split
    · rename_i found hfound
      have hsplit := after?_eq_some_iff.mp hfound
      have hrest : rest <:+ b :: (before ++ word ++ rest) := ⟨b :: (before ++ word), by simp⟩
      have hends : found <:+ b :: (before ++ word ++ rest) := ⟨word, hsplit.symm⟩
      have hlength := congrArg List.length hsplit
      simp only [List.length_cons, List.length_append] at hlength
      obtain ⟨skipped, rfl⟩ := List.suffix_of_suffix_length_le hrest hends (by omega)
      exact ⟨[], skipped, rfl⟩
    · obtain ⟨head, skipped, h⟩ := ih
      exact ⟨b :: head, skipped, by rw [h]; rfl⟩

theorem eq_of_afterGap? {word cs rest : List Char} (h : afterGap? word cs = some rest) :
    ∃ gap, gap ≠ [] ∧ cs = gap ++ word ++ rest := by
  cases cs with
  | nil => cases h
  | cons c cs =>
    obtain ⟨⟨before, behind⟩, hcut, hrest⟩ := Option.map_eq_some_iff.mp h
    obtain rfl : behind = rest := hrest
    exact ⟨c :: before, List.cons_ne_nil _ _, by rw [eq_of_cut? hcut]; rfl⟩

theorem exists_afterGap?_append {gap : List Char} (hgap : gap ≠ []) (word rest : List Char) :
    ∃ skipped, afterGap? word (gap ++ word ++ rest) = some (skipped ++ rest) := by
  obtain ⟨g, gap, rfl⟩ := List.exists_cons_of_ne_nil hgap
  obtain ⟨head, skipped, h⟩ := exists_cut?_append word gap rest
  refine ⟨skipped, ?_⟩
  rw [List.cons_append, List.cons_append, afterGap?, h]
  rfl

/-- A word stands on one side of a character that is not in it. -/
theorem append_eq_mark {word before rest left right : List Char} {mark : Char} (hmark : mark ∉ word)
    (h : before ++ word ++ rest = left ++ mark :: right) :
    (∃ between, left = before ++ word ++ between ∧ rest = between ++ mark :: right) ∨
      ∃ between, before = left ++ mark :: between ∧ right = between ++ word ++ rest := by
  rcases List.append_eq_append_iff.mp h with ⟨between, hleft, hrest⟩ | ⟨tail, hhead, htail⟩
  · exact .inl ⟨between, hleft, hrest⟩
  · cases tail with
    | nil => exact .inl ⟨[], by simpa using hhead.symm, by simpa using htail.symm⟩
    | cons m tail =>
      rw [List.cons_append, List.cons.injEq] at htail
      obtain ⟨rfl, hright⟩ := htail
      -- the mark stands in `before ++ word`, and it is not in the word
      rcases List.append_eq_append_iff.mp hhead with ⟨part, _, hword⟩ | ⟨part, hbefore, hword⟩
      · exact absurd (hword ▸ List.mem_append_right part List.mem_cons_self) hmark
      · cases part with
        | nil =>
          rw [List.nil_append] at hword
          exact absurd (hword ▸ List.mem_cons_self) hmark
        | cons m between =>
          rw [List.cons_append, List.cons.injEq] at hword
          obtain ⟨rfl, htail⟩ := hword
          exact .inr ⟨between, hbefore, by rw [hright, htail]⟩

theorem occurs_append (word before rest : List Char) :
    occurs word (before ++ word ++ rest) = true := by
  obtain ⟨head, skipped, hcut⟩ := exists_cut?_append word before rest
  rw [occurs, hcut, Option.isSome_some]

/-- A piece of text that does not contain the word, and that the word can neither run into nor come
out of. -/
def IsBarrier (word piece : List Char) : Prop :=
  2 ≤ piece.length ∧ piece.head?.all (· ∉ word) = true ∧ piece.getLast?.all (· ∉ word) = true ∧
    occurs word piece = false

instance (word piece : List Char) : Decidable (IsBarrier word piece) :=
  inferInstanceAs (Decidable (_ ∧ _ ∧ _ ∧ _))

theorem IsBarrier.split {word piece : List Char} (h : IsBarrier word piece) :
    ∃ first inside last, piece = first :: inside ++ [last] ∧ first ∉ word ∧ last ∉ word ∧
      ∀ before rest, inside ≠ before ++ word ++ rest := by
  obtain ⟨hlength, hfirst, hlast, habsent⟩ := h
  cases piece with
  | nil => simp at hlength
  | cons first tail =>
    rcases List.eq_nil_or_concat tail with rfl | ⟨inside, last, rfl⟩
    · simp at hlength
    · rw [List.concat_eq_append, ← List.cons_append] at hlast habsent
      rw [List.getLast?_concat, Option.all_some, decide_eq_true_iff] at hlast
      rw [List.head?_cons, Option.all_some, decide_eq_true_iff] at hfirst
      rw [List.concat_eq_append]
      refine ⟨first, inside, last, rfl, hfirst, hlast, fun before rest hinside => ?_⟩
      have hpiece : first :: inside ++ [last] = (first :: before) ++ word ++ (rest ++ [last]) := by
        rw [hinside]
        simp
      rw [hpiece, occurs_append] at habsent
      cases habsent

/-- A word stands on one side of a barrier. -/
theorem append_eq_barrier {word piece before rest left right : List Char}
    (hbarrier : IsBarrier word piece) (h : before ++ word ++ rest = left ++ piece ++ right) :
    (∃ between, left = before ++ word ++ between ∧ rest = between ++ piece ++ right) ∨
      ∃ between, before = left ++ piece ++ between ∧ right = between ++ word ++ rest := by
  obtain ⟨first, inside, last, rfl, hfirst, hlast, habsent⟩ := hbarrier.split
  have hpiece : left ++ (first :: inside ++ [last]) ++ right =
      left ++ first :: (inside ++ last :: right) := by simp
  rw [hpiece] at h
  rcases append_eq_mark hfirst h with ⟨between, hleft, hrest⟩ | ⟨between, hbefore, hright⟩
  · exact .inl ⟨between, hleft, by rw [hrest]; simp⟩
  · rcases append_eq_mark hlast hright.symm with ⟨part, hin, -⟩ | ⟨part, hbetween, hbehind⟩
    · exact absurd hin (habsent between part)
    · exact .inr ⟨part, by rw [hbefore, hbetween]; simp, hbehind⟩

end EmuControl.Text
