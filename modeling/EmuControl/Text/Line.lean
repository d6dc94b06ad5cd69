/-!
# Lines of text

A text falls into lines, each with what ends it. Nothing of the text is lost: lines and terminators
together are the text.
-/
namespace EmuControl.Text

/-- A line and what ends it: a line feed, perhaps after a carriage return, or nothing for the last
line. -/
structure Line where
  body : List Char
  terminator : List Char
  deriving DecidableEq, Repr

namespace Line

/-- The line with its terminator. -/
def text (l : Line) : List Char :=
  l.body ++ l.terminator

end Line

/-- The lines of a text. -/
def lines : List Char → List Line
  | [] => []
  | '\n' :: rest => ⟨[], ['\n']⟩ :: lines rest
  | '\r' :: '\n' :: rest => ⟨[], ['\r', '\n']⟩ :: lines rest
  | c :: rest =>
    match lines rest with
    | [] => [⟨[c], []⟩]
    | l :: ls => { l with body := c :: l.body } :: ls

/-- Every character of a text stands in one of its lines. -/
theorem flatMap_lines (cs : List Char) : (lines cs).flatMap Line.text = cs := by
  fun_induction lines cs with
  | case1 => rfl
  | case2 rest ih => simp [Line.text, ih]
  | case3 rest ih => simp [Line.text, ih]
  | case4 c rest _ _ none ih =>
    rw [none] at ih
    simp [Line.text, ← ih]
  | case5 c rest _ _ l ls some ih =>
    rw [some] at ih
    simpa [Line.text] using ih

end EmuControl.Text
