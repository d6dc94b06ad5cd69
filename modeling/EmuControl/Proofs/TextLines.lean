import EmuControl.Text.Line
import Mathlib.Data.List.Basic

/-!
# Texts and their lines

`lines` cuts a text. `Lined` says which lists of lines a text can be cut into: no line holds a line
feed, a carriage return at the end of a line belongs to what ends it, and only the last line may go
without. Such lines are found again in the text that they make up, so a change to the lines of a text
that keeps them in this shape is one to the text. When the last line of a text has its terminator,
the lines of what is appended follow those that are there.
-/
namespace EmuControl.Text

/-- A line with that terminator can have the body. -/
structure Fits (terminator body : List Char) : Prop where
  noLineFeed : '\n' ∉ body
  noReturn : terminator = ['\n'] → body.getLast? ≠ some '\r'
  notEmpty : terminator = [] → body ≠ []

/-- What ends a line that is not the last one. -/
def IsLineEnd (cs : List Char) : Prop :=
  cs = ['\n'] ∨ cs = ['\r', '\n']

/-- The lines are those of a text. -/
inductive Lined : List Line → Prop
  | nil : Lined []
  | last {body : List Char} : Fits [] body → Lined [⟨body, []⟩]
  | cons {l : Line} {ls : List Line} : IsLineEnd l.terminator → Fits l.terminator l.body →
      Lined ls → Lined (l :: ls)

theorem eq_nil_of_lines {cs : List Char} (h : lines cs = []) : cs = [] := by
  have hcs := flatMap_lines cs
  rw [h] at hcs
  exact hcs.symm

/-- One more character at the head of the first line. -/
theorem Lined.push {c : Char} {l : Line} {ls : List Line} (h : Lined (l :: ls)) (hc : c ≠ '\n')
    (hreturn : c = '\r' → l.text.head? ≠ some '\n') :
    Lined ({ l with body := c :: l.body } :: ls) := by
  have hfits (hl : Fits l.terminator l.body) : Fits l.terminator (c :: l.body) := by
    refine ⟨?_, ?_, fun _ => List.cons_ne_nil _ _⟩
    · simp [hl.noLineFeed, hc.symm]
    · intro hterminator
      cases hbody : l.body with
      | nil =>
        intro hlast
        apply hreturn (by simpa using hlast)
        rw [Line.text, hbody, hterminator]
        rfl
      | cons b body =>
        rw [List.getLast?_cons_cons, ← hbody]
        exact hl.noReturn hterminator
  cases h with
  | last hl => exact .last (hfits hl)
  | cons hend hl hls => exact .cons hend (hfits hl) hls

theorem lined_lines (cs : List Char) : Lined (lines cs) := by
  fun_induction lines cs with
  | case1 => exact .nil
  | case2 rest ih => exact .cons (.inl rfl) ⟨by simp, by simp, by simp⟩ ih
  | case3 rest ih => exact .cons (.inr rfl) ⟨by simp, by simp, by simp⟩ ih
  | case4 c rest hfeed hreturn hlines ih =>
    obtain rfl := eq_nil_of_lines hlines
    refine .last ⟨?_, by simp, by simp⟩
    simpa [eq_comm] using hfeed
  | case5 c rest hfeed hreturn l ls hlines ih =>
    rw [hlines] at ih
    refine ih.push hfeed fun hc => ?_
    intro hhead
    obtain ⟨tail, htail⟩ := List.head?_eq_some_iff.mp hhead
    have hrest := flatMap_lines rest
    rw [hlines, List.flatMap_cons, htail] at hrest
    exact hreturn _ hc hrest.symm

theorem Lined.fits_of_mem {ls : List Line} (h : Lined ls) {l : Line} (hl : l ∈ ls) :
    Fits l.terminator l.body := by
  induction h with
  | nil => cases hl
  | last hfits =>
    rw [List.mem_singleton.mp hl]
    exact hfits
  | cons _ hfits _ ih =>
    rcases List.mem_cons.mp hl with rfl | hl
    · exact hfits
    · exact ih hl

theorem lines_cons {c : Char} {cs : List Char} {l : Line} {ls : List Line} (hc : c ≠ '\n')
    (hreturn : c = '\r' → cs.head? ≠ some '\n') (h : lines cs = l :: ls) :
    lines (c :: cs) = { l with body := c :: l.body } :: ls := by
  rw [lines]
  · rw [h]
  · exact hc
  · intro rest hsame hrest
    apply hreturn hsame
    rw [hrest]
    rfl

theorem Fits.tail {terminator body : List Char} {b : Char} (h : Fits terminator (b :: body))
    (hbody : terminator = [] → body ≠ []) : Fits terminator body := by
  refine ⟨fun hmem => h.noLineFeed (List.mem_cons_of_mem _ hmem), ?_, hbody⟩
  intro hterminator
  cases body with
  | nil => simp
  | cons c body =>
    have hlast := h.noReturn hterminator
    rwa [List.getLast?_cons_cons] at hlast

/-- A terminated line is cut off as it stands. -/
theorem lines_append {terminator body : List Char} (hend : IsLineEnd terminator)
    (hfits : Fits terminator body) (rest : List Char) :
    lines (body ++ terminator ++ rest) = ⟨body, terminator⟩ :: lines rest := by
  induction body with
  | nil =>
    rcases hend with rfl | rfl
    · rfl
    · rfl
  | cons b body ih =>
    have hne : terminator ≠ [] := by
      rcases hend with rfl | rfl <;> simp
    have hfeed : b ≠ '\n' := fun hb => hfits.noLineFeed (hb ▸ List.mem_cons_self)
    refine lines_cons hfeed ?_ (ih (hfits.tail fun h => absurd h hne))
    intro hb
    cases body with
    | nil =>
      rcases hend with rfl | rfl
      · exact absurd (by rw [hb]; rfl) (hfits.noReturn rfl)
      · simp
    | cons c body =>
      intro hhead
      have hc : c = '\n' := by simpa using hhead
      exact hfits.noLineFeed (by simp [hc])

theorem lines_unterminated {body : List Char} (hfits : Fits [] body) : lines body = [⟨body, []⟩] := by
  induction body with
  | nil => exact absurd rfl (hfits.notEmpty rfl)
  | cons b body ih =>
    have hfeed : b ≠ '\n' := fun hb => hfits.noLineFeed (hb ▸ List.mem_cons_self)
    cases body with
    | nil => simp [lines]
    | cons c body =>
      refine lines_cons hfeed ?_ (ih (hfits.tail fun _ => List.cons_ne_nil _ _))
      intro _ hhead
      have hc : c = '\n' := by simpa using hhead
      exact hfits.noLineFeed (by simp [hc])

theorem Lined.lines_eq {ls : List Line} (h : Lined ls) : lines (ls.flatMap Line.text) = ls := by
  induction h with
  | nil => rfl
  | last hfits => simpa [Line.text] using lines_unterminated hfits
  | cons hend hfits _ ih =>
    rw [List.flatMap_cons, Line.text, lines_append hend hfits, ih]

theorem eq_lines_iff {cs : List Char} {ls : List Line} :
    ls = lines cs ↔ Lined ls ∧ ls.flatMap Line.text = cs := by
  constructor
  · rintro rfl
    exact ⟨lined_lines cs, flatMap_lines cs⟩
  · rintro ⟨hlined, rfl⟩
    exact hlined.lines_eq.symm

/-! Texts that are put together -/

/-- No line is left open at the end of the text. -/
def IsClosed (cs : List Char) : Prop :=
  ∀ c ∈ cs.getLast?, c = '\n'

theorem Lined.isLineEnd_of_isClosed {ls : List Line} (h : Lined ls)
    (hclosed : IsClosed (ls.flatMap Line.text)) : ∀ l ∈ ls, IsLineEnd l.terminator := by
  induction h with
  | nil => exact List.forall_mem_nil _
  | @last body hfits =>
    -- the last character of the body would be a line feed
    have hbody : [⟨body, []⟩].flatMap Line.text = body := by simp [Line.text]
    rw [hbody] at hclosed
    have hlast := List.getLast?_eq_some_getLast (hfits.notEmpty rfl)
    have hfeed := hclosed _ hlast
    exact absurd (hfeed ▸ List.getLast_mem _) hfits.noLineFeed
  | @cons l ls hend _ _ ih =>
    refine List.forall_mem_cons.mpr ⟨hend, ih fun c hc => hclosed c ?_⟩
    rw [List.flatMap_cons, List.getLast?_append, hc, Option.some_or]
    rfl

theorem Lined.append {ls ls' : List Line} (h : Lined ls) (hends : ∀ l ∈ ls, IsLineEnd l.terminator)
    (h' : Lined ls') : Lined (ls ++ ls') := by
  induction h with
  | nil => exact h'
  | last _ =>
    have hend := hends _ List.mem_cons_self
    rcases hend with hend | hend <;> cases hend
  | cons hend hfits _ ih =>
    exact .cons hend hfits (ih fun l hl => hends l (List.mem_cons_of_mem _ hl))

/-- The lines of a closed text go on with those of what is appended to it. -/
theorem IsClosed.lines_append {cs : List Char} (h : IsClosed cs) (cs' : List Char) :
    lines (cs ++ cs') = lines cs ++ lines cs' := by
  have hclosed : IsClosed ((lines cs).flatMap Line.text) := by rwa [flatMap_lines]
  have hends := (lined_lines cs).isLineEnd_of_isClosed hclosed
  have hlined : Lined (lines cs ++ lines cs') := (lined_lines cs).append hends (lined_lines cs')
  have hlines := hlined.lines_eq
  rwa [List.flatMap_append, flatMap_lines, flatMap_lines] at hlines

/-- Changing bodies and leaving lines out keeps lines in shape if every new body fits where the old
one did. -/
theorem Lined.filterMap {ls : List Line} (h : Lined ls) {change : List Char → Option (List Char)}
    (hchange : ∀ terminator body new, Fits terminator body → change body = some new →
      Fits terminator new) :
    Lined (ls.filterMap fun l => (change l.body).map fun body => { l with body }) := by
  induction h with
  | nil => exact .nil
  | @last body hfits =>
    rw [List.filterMap_cons, List.filterMap_nil]
    cases hnew : change body with
    | none => exact .nil
    | some new => exact .last (hchange [] body new hfits hnew)
  | @cons l ls hend hfits _ ih =>
    rw [List.filterMap_cons]
    cases hnew : change l.body with
    | none => exact ih
    | some new => exact .cons hend (hchange _ _ new hfits hnew) ih

end EmuControl.Text
