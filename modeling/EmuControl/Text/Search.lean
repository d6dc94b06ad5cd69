/-!
# Finding words in text

Searches over lists of characters. `cut?` splits a text at the first place where a word stands, and
`somewhere` asks whether a property holds of what follows at some place.
-/
namespace EmuControl.Text

/-- What follows a word at the head of a text. -/
def after? : (word : List Char) → List Char → Option (List Char)
  | [], cs => some cs
  | _ :: _, [] => none
  | w :: word, c :: cs => if w = c then after? word cs else none

/-- What stands before the first occurrence of a word, and what follows it. -/
def cut? (word : List Char) : List Char → Option (List Char × List Char)
  | [] => (after? word []).map fun rest => ([], rest)
  | c :: cs =>
    match after? word (c :: cs) with
    | some rest => some ([], rest)
    | none => (cut? word cs).map fun (before, rest) => (c :: before, rest)

/-- What follows the first occurrence of a word that something stands before. -/
def afterGap? (word : List Char) : List Char → Option (List Char)
  | [] => none
  | _ :: cs => (cut? word cs).map (·.2)

/-- Whether a property holds of the text from some place on. -/
def somewhere (p : List Char → Bool) : List Char → Bool
  | [] => p []
  | c :: cs => p (c :: cs) || somewhere p cs

def occurs (word : List Char) (cs : List Char) : Bool :=
  (cut? word cs).isSome

/-- With another word in place of the first occurrence of a word. -/
def replaceFirst (word replacement cs : List Char) : List Char :=
  match cut? word cs with
  | some (before, rest) => before ++ replacement ++ rest
  | none => cs

theorem after?_eq_some_iff {word cs rest : List Char} :
    after? word cs = some rest ↔ cs = word ++ rest := by
  induction word generalizing cs with
  | nil => simp [after?]
  | cons w word ih =>
    cases cs with
    | nil => simp [after?]
    | cons c cs =>
      by_cases h : w = c
      · simp [after?, h, ih]
      · simp [after?, h, Ne.symm h]

/-- A cut loses nothing but the word. -/
theorem eq_of_cut? {word cs before rest : List Char} (h : cut? word cs = some (before, rest)) :
    cs = before ++ word ++ rest := by
  induction cs generalizing before with
  | nil =>
    obtain ⟨r, found, same⟩ := Option.map_eq_some_iff.1 h
    cases same
    simpa using after?_eq_some_iff.1 found
  | cons c cs ih =>
    rw [cut?] at h
    split at h
    · next found =>
      cases h
      simpa using after?_eq_some_iff.1 found
    · obtain ⟨⟨b, r⟩, found, same⟩ := Option.map_eq_some_iff.1 h
      cases same
      simp [ih found]

theorem somewhere_iff {p : List Char → Bool} {cs : List Char} :
    somewhere p cs = true ↔ ∃ before rest, cs = before ++ rest ∧ p rest = true := by
  induction cs with
  | nil =>
    constructor
    · exact fun h => ⟨[], [], rfl, h⟩
    · rintro ⟨before, rest, same, h⟩
      obtain ⟨rfl, rfl⟩ := List.nil_eq_append_iff.1 same
      exact h
  | cons c cs ih =>
    rw [somewhere, Bool.or_eq_true, ih]
    constructor
    · rintro (h | ⟨before, rest, rfl, h⟩)
      · exact ⟨[], c :: cs, rfl, h⟩
      · exact ⟨c :: before, rest, rfl, h⟩
    · rintro ⟨before, rest, same, h⟩
      cases before with
      | nil => exact .inl (same ▸ h)
      | cons b before =>
        obtain ⟨rfl, rfl⟩ := List.cons.inj same
        exact .inr ⟨before, rest, rfl, h⟩

end EmuControl.Text
