import EmuControl.Proofs.UpdateFixpoint

/-!
# Updating line by line

An update looks at one line at a time. So a text that is closed by a line feed can be updated apart
from what follows it, and every line that is kept comes with the terminator that it had.

A text stays as it is exactly when no rule is about any of its lines (`Concerns`). Every rule that
is about a line changes it for good: what the rule looks for is gone after all rules have been
applied.
-/
namespace EmuControl.ServiceUpdate

open EmuControl.Text

/-- One of the rules is about the line. -/
inductive Concerns (line : List Char) : Prop
  | underscore : IsAttribute line → Concerns line
  | directories : IsDirectories line → Concerns line
  | service : NamesService line → Concerns line
  | signature {s : List Char × List Char} : s ∈ signatures → s.1 <:+: line → Concerns line
  | dropped : DropReason line → Concerns line

theorem changeLine_of_not_concerns {line : List Char} (hline : '\n' ∉ line)
    (h : ¬ Concerns line) : changeLine line = line := by
  have himport : isServiceImport line = false := by
    rw [Bool.eq_false_iff, Ne, isServiceImport_iff_namesService hline]
    exact fun hservice => h (.service hservice)
  rw [changeLine_of_settled (fun ha => h (.underscore ha)) (fun hd => h (.directories hd)) himport]
  exact updateSignatures_eq_self_iff.mpr fun s hs hstands => h (.signature hs hstands)

/-- No rule leaves behind what it looks for, so a line that comes out as it went in was of no
concern to any. -/
theorem not_concerns_of_changeLine {line : List Char} (hline : '\n' ∉ line)
    (hsame : changeLine line = line) (hkept : isDropped line = false) : ¬ Concerns line := by
  have hattribute : ¬ IsAttribute line := hsame ▸ not_isAttribute_changeLine line
  have hdirectories : ¬ IsDirectories line := hsame ▸ not_isDirectories_changeLine line
  have himport : isServiceImport line = false := hsame ▸ isServiceImport_changeLine line
  have hsignatures : updateSignatures line = line := by
    rw [← changeLine_of_settled hattribute hdirectories himport, hsame]
  intro h
  cases h with
  | underscore h => exact hattribute h
  | directories h => exact hdirectories h
  | service h =>
    rw [← isServiceImport_iff_namesService hline, himport] at h
    cases h
  | signature hs hstands => exact updateSignatures_eq_self_iff.mp hsignatures _ hs hstands
  | dropped h =>
    rw [← isDropped_iff hline, hkept] at h
    cases h

theorem updateLine_eq_self_iff {line : List Char} (hline : '\n' ∉ line) :
    updateLine line = some line ↔ ¬ Concerns line := by
  rw [updateLine_eq_some_iff]
  constructor
  · rintro ⟨hkept, hsame⟩
    rw [← hsame] at hkept
    exact not_concerns_of_changeLine hline hsame.symm hkept
  · intro h
    have hsame := changeLine_of_not_concerns hline h
    refine ⟨?_, hsame.symm⟩
    rw [hsame, Bool.eq_false_iff, Ne, isDropped_iff hline]
    exact fun hreason => h (.dropped hreason)

/-- A list from which nothing was left out and in which nothing was changed. -/
theorem forall_of_filterMap_eq_self {α : Type} {f : α → Option α} {xs : List α}
    (h : xs.filterMap f = xs) : ∀ x ∈ xs, f x = some x := by
  induction xs with
  | nil => exact List.forall_mem_nil _
  | cons x xs ih =>
    cases hx : f x with
    | none =>
      rw [List.filterMap_cons_none hx] at h
      have hlength := List.length_filterMap_le f xs
      rw [h, List.length_cons] at hlength
      omega
    | some y =>
      rw [List.filterMap_cons_some hx, List.cons.injEq] at h
      obtain ⟨rfl, hrest⟩ := h
      exact List.forall_mem_cons.mpr ⟨hx, ih hrest⟩

theorem update_eq_self_iff {text : List Char} :
    update text = text ↔ ∀ l ∈ lines text, ¬ Concerns l.body := by
  have hline : ∀ l ∈ lines text, '\n' ∉ l.body := fun l hl =>
    ((lined_lines text).fits_of_mem hl).noLineFeed
  constructor
  · intro h l hl
    have hlines := lines_update text
    rw [h] at hlines
    have hkept : updatedLine? l = some l := forall_of_filterMap_eq_self hlines.symm l hl
    obtain ⟨body, hbody, hsame⟩ := Option.map_eq_some_iff.mp hkept
    rw [← updateLine_eq_self_iff (hline l hl), hbody]
    exact congrArg (fun l => some (Line.body l)) hsame
  · intro h
    exact update_eq_self fun l hl => (updateLine_eq_self_iff (hline l hl)).mpr (h l hl)

theorem update_append {cs : List Char} (h : IsClosed cs) (cs' : List Char) :
    update (cs ++ cs') = update cs ++ update cs' := by
  rw [update, h.lines_append, List.flatMap_append]
  rfl

theorem isClosed_toList {s : String} (h : s = "" ∨ ∃ front, s = front ++ "\n") :
    IsClosed s.toList := by
  rcases h with rfl | ⟨front, rfl⟩
  · exact fun _ hc => nomatch hc
  · intro c hc
    rw [String.toList_append, List.getLast?_append] at hc
    exact (Option.some.inj hc).symm

/-- A text that is empty or ends with a line feed is updated apart from what follows it. A text falls
into lines in one way only, and its update consists of those that are kept, each updated and with its
own terminator. It is left as it is exactly when no rule is about one of its lines. -/
theorem update_line_by_line :
    (∀ a b : String, a = "" ∨ (∃ front, a = front ++ "\n") →
      updateText (a ++ b) = updateText a ++ updateText b) ∧
    ∀ text : String,
      (∀ ls, ls = lines text.toList ↔ Lined ls ∧ ls.flatMap Line.text = text.toList) ∧
      updateText text = String.ofList
        (((lines text.toList).filterMap fun l =>
          (updateLine l.body).map fun body => Line.mk body l.terminator).flatMap Line.text) ∧
      (updateText text = text ↔ ∀ l ∈ lines text.toList, ¬ Concerns l.body) := by
  refine ⟨fun a b h => ?_, fun text => ⟨fun ls => eq_lines_iff, ?_, ?_⟩⟩
  · simp only [updateText, String.toList_append, update_append (isClosed_toList h),
      String.ofList_append]
  · exact congrArg String.ofList (update_eq_flatMap_text text.toList)
  · rw [← String.toList_inj, updateText, String.toList_ofList, update_eq_self_iff]

/-- Terminators of both kinds stay with their lines, and a text without rules to apply keeps even a
carriage return that ends no line. -/
theorem mixed_terminators_kept :
    let closed := "  _name = 1\r\naddservice(X)\n\tdirs\n"
    let tail := "\r\n  _group"
    let plain := "a\rb\n\n\r\n\r"
    updateText (closed ++ tail) = "  name = 1\r\n\tdirectories\n" ++ "\r\n  group" ∧
      updateText plain = plain ∧ ∀ l ∈ lines plain.toList, ¬ Concerns l.body := by
  intro closed tail plain
  obtain ⟨happend, htext⟩ := update_line_by_line
  have hclosed : updateText closed = "  name = 1\r\n\tdirectories\n" := by decide +kernel
  have hopen : updateText tail = "\r\n  group" := by decide +kernel
  have hplain : updateText plain = plain := by decide +kernel
  refine ⟨?_, hplain, (htext plain).2.2.mp hplain⟩
  rw [happend closed tail (.inr ⟨"  _name = 1\r\naddservice(X)\n\tdirs", by decide +kernel⟩),
    hclosed, hopen]

end EmuControl.ServiceUpdate
