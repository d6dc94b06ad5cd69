import EmuControl.Proofs.TextLines
import EmuControl.Proofs.WordSearch
import EmuControl.ServiceUpdate.Definition

/-!
# Imports of the service class

An updated definition ought to import the service class from one module only. `importLine` imports
it: indentation, the path of a module, and whatever follows the name of the class. Such a line is
normalized as long as something follows the name. A line that ends with the name is taken for
no import, and stays as it is.

Every rule puts one piece of text in place of another (`Replaces`). None of the new pieces breaks a
line, so the updated text has the lines that were kept, and none of them brings a line into the form
of an import, so those lines are past the rule for imports.
-/
namespace EmuControl.ServiceUpdate

open EmuControl.Text

/-! The rules as replacements -/

/-- Both texts are the same but for one piece, and the new piece breaks no line. -/
inductive Replaces : List Char → List Char → Prop
  | same (cs : List Char) : Replaces cs cs
  | piece (before old new rest : List Char) : new ≠ [] → '\n' ∉ new → '\r' ∉ new →
      Replaces (before ++ old ++ rest) (before ++ new ++ rest)

/-- What has been replaced in a line leaves it a line. -/
theorem Replaces.fits {cs cs' terminator : List Char} (h : Replaces cs cs')
    (hfits : Fits terminator cs) : Fits terminator cs' := by
  cases h with
  | same => exact hfits
  | piece before old new rest hnew hnoFeed hnoReturn =>
    refine ⟨?_, ?_, by simp [hnew]⟩
    · have hfeed := hfits.noLineFeed
      simp only [List.mem_append, not_or] at hfeed ⊢
      exact ⟨⟨hfeed.1.1, hnoFeed⟩, hfeed.2⟩
    · intro hterminator hlast
      rw [List.getLast?_append] at hlast
      cases hrest : rest.getLast? with
      | some r =>
        rw [hrest, Option.some_or] at hlast
        apply hfits.noReturn hterminator
        rw [List.getLast?_append, hrest, Option.some_or, hlast]
      | none =>
        rw [hrest, Option.none_or, List.getLast?_append, List.getLast?_eq_some_getLast hnew,
          Option.some_or] at hlast
        exact hnoReturn (Option.some.inj hlast ▸ List.getLast_mem hnew)

theorem Replaces.noLineFeed {cs cs' : List Char} (h : Replaces cs cs') (hcs : '\n' ∉ cs) :
    '\n' ∉ cs' := by
  have hfits : Fits ['\r', '\n'] cs := ⟨hcs, by simp, by simp⟩
  exact (h.fits hfits).noLineFeed

theorem splitIndent_append (cs : List Char) : (splitIndent cs).1 ++ (splitIndent cs).2 = cs :=
  List.takeWhile_append_dropWhile

theorem updateAttribute_replaces (cs : List Char) : Replaces cs (updateAttribute cs) := by
  unfold updateAttribute
  split
  · rename_i b indent c rest hsplit
    split
    · rename_i hletter
      have hother : ∀ d, isLowerLetter d = false → d ∉ [c] := by
        intro d hd hmem
        rw [List.mem_singleton.mp hmem, hletter] at hd
        cases hd
      have hcs := splitIndent_append cs
      rw [hsplit] at hcs
      have hreplaces := Replaces.piece (b :: indent) ['_', c] [c] rest (by simp)
        (hother '\n' rfl) (hother '\r' rfl)
      simpa [← hcs] using hreplaces
    · exact .same cs
  · exact .same cs

theorem updateDirectories_replaces (cs : List Char) : Replaces cs (updateDirectories cs) := by
  unfold updateDirectories
  split
  · rename_i b indent rest hsplit
    split
    · rename_i behind hdirs
      have hcs := splitIndent_append cs
      rw [hsplit, after?_eq_some_iff.mp hdirs] at hcs
      have hreplaces := Replaces.piece (b :: indent) "dirs".toList "directories".toList behind
        (by decide) (by decide) (by decide)
      simpa [← hcs] using hreplaces
    · exact .same cs
  · exact .same cs

/-- The import that is put in for others is one line, and no rule applies to it. -/
theorem serviceImport_settled :
    (serviceImport ≠ [] ∧ '\n' ∉ serviceImport ∧ '\r' ∉ serviceImport ∧ '(' ∉ serviceImport) ∧
    isServiceImport serviceImport = false ∧ updateSignatures serviceImport = serviceImport ∧
    isDropped serviceImport = false := by
  unfold serviceImport isServiceImport updateSignatures signatures
  repeat rw [String.toList_ofList]
  decide +kernel

/-- Neither form of a signature breaks a line. The new one has a parenthesis, and no word that makes
an import reaches into it. -/
theorem signatures_pieces : ∀ s ∈ signatures,
    (s.1 ≠ [] ∧ '\n' ∉ s.1) ∧ (s.2 ≠ [] ∧ '\n' ∉ s.2 ∧ '\r' ∉ s.2 ∧ '(' ∈ s.2) ∧
    IsBarrier "import".toList s.2 ∧ IsBarrier "CoreService".toList s.2 := by
  unfold signatures
  repeat rw [String.toList_ofList]
  decide +kernel

theorem updateImport_replaces (cs : List Char) : Replaces cs (updateImport cs) := by
  unfold updateImport
  split
  · obtain ⟨⟨hnonempty, hnoFeed, hnoReturn, -⟩, -⟩ := serviceImport_settled
    have hreplaces := Replaces.piece [] cs serviceImport [] hnonempty hnoFeed hnoReturn
    simpa using hreplaces
  · exact .same cs

theorem replaceFirst_replaces {word new : List Char} (hnew : new ≠ [])
    (hnoFeed : '\n' ∉ new) (hnoReturn : '\r' ∉ new) (cs : List Char) :
    Replaces cs (replaceFirst word new cs) := by
  unfold replaceFirst
  split
  · rename_i before rest hcut
    rw [eq_of_cut? hcut]
    exact .piece before word new rest hnew hnoFeed hnoReturn
  · exact .same cs

/-- What the replacement of each signature keeps is kept by all of them. -/
theorem updateSignatures_keeps {P : List Char → Prop} {cs : List Char} (h : P cs)
    (hstep : ∀ s ∈ signatures, ∀ cs, P cs → P (replaceFirst s.1 s.2 cs)) :
    P (updateSignatures cs) := by
  unfold updateSignatures
  generalize signatures = all at hstep
  induction all generalizing cs with
  | nil => exact h
  | cons s rest ih =>
    rw [List.forall_mem_cons] at hstep
    exact ih (hstep.1 cs h) hstep.2

theorem changeLine_fits {terminator cs : List Char} (h : Fits terminator cs) :
    Fits terminator (changeLine cs) := by
  have hattribute := (updateAttribute_replaces cs).fits h
  have hdirectories := (updateDirectories_replaces _).fits hattribute
  have himport := (updateImport_replaces _).fits hdirectories
  refine updateSignatures_keeps himport fun s hs cs hfits => ?_
  obtain ⟨-, ⟨hnonempty, hnoFeed, hnoReturn, -⟩, -⟩ := signatures_pieces s hs
  exact (replaceFirst_replaces hnonempty hnoFeed hnoReturn cs).fits hfits

/-- The line with its body updated, unless it is dropped. -/
def updatedLine? (l : Line) : Option Line :=
  (updateLine l.body).map fun body => { l with body }

theorem updateWhole_eq (l : Line) : updateWhole l = (updatedLine? l).toList.flatMap Line.text := by
  unfold updateWhole updatedLine?
  cases updateLine l.body with
  | none => rfl
  | some body => simp [Line.text]

theorem update_eq_flatMap_text (text : List Char) :
    update text = ((lines text).filterMap updatedLine?).flatMap Line.text := by
  rw [List.filterMap_eq_flatMap_toList, List.flatMap_assoc]
  exact congrArg (fun f => (lines text).flatMap f) (funext updateWhole_eq)

/-- The lines of an updated text are the updated lines that stay. -/
theorem lines_update (text : List Char) : lines (update text) = (lines text).filterMap updatedLine? := by
  rw [update_eq_flatMap_text]
  apply Lined.lines_eq
  refine (lined_lines text).filterMap fun terminator body new hfits hnew => ?_
  unfold updateLine at hnew
  split at hnew
  · cases hnew
  · cases hnew
    exact changeLine_fits hfits

/-! What an import looks like -/

theorem isServiceImport_iff {cs : List Char} :
    isServiceImport cs = true ↔ '\n' ∉ cs ∧ ∃ before between behind,
      before ≠ [] ∧ between ≠ [] ∧ behind ≠ [] ∧
        cs = before ++ "import".toList ++ (between ++ "CoreService".toList ++ behind) := by
  unfold isServiceImport
  rw [Bool.and_eq_true, Bool.not_eq_true', List.contains_eq_mem, decide_eq_false_iff_not]
  refine and_congr_right fun _ => ?_
  constructor
  · intro h
    cases himport : afterGap? "import".toList cs with
    | none =>
      rw [himport] at h
      cases h
    | some rest =>
      rw [himport, Option.bind_some] at h
      cases hclass : afterGap? "CoreService".toList rest with
      | none =>
        rw [hclass] at h
        cases h
      | some behind =>
        rw [hclass, Option.any_some, Bool.not_eq_true', List.isEmpty_eq_false_iff] at h
        obtain ⟨before, hbefore, hcs⟩ := eq_of_afterGap? himport
        obtain ⟨between, hbetween, hrest⟩ := eq_of_afterGap? hclass
        exact ⟨before, between, behind, hbefore, hbetween, h, by rw [hcs, hrest]⟩
  · intro h
    obtain ⟨before, between, behind, hbefore, hbetween, hbehind, hcs⟩ := h
    obtain ⟨skipped, himport⟩ := exists_afterGap?_append hbefore "import".toList
      (between ++ "CoreService".toList ++ behind)
    have hgap : skipped ++ between ≠ [] := by simp [hbetween]
    obtain ⟨skipped', hclass⟩ := exists_afterGap?_append hgap "CoreService".toList behind
    have hrest : skipped ++ (between ++ "CoreService".toList ++ behind) =
        skipped ++ between ++ "CoreService".toList ++ behind := by simp only [List.append_assoc]
    rw [hcs, himport, Option.bind_some, hrest, hclass]
    simp [hbehind]

/-- A piece that parts the text for both words can stand in place of any other without bringing a
line into the form of an import. -/
theorem isServiceImport_of_replaced {before old new rest : List Char} (hold : old ≠ [])
    (hbreak : '\n' ∉ old) (himport : IsBarrier "import".toList new)
    (hclass : IsBarrier "CoreService".toList new)
    (h : isServiceImport (before ++ new ++ rest) = true) :
    isServiceImport (before ++ old ++ rest) = true := by
  rw [isServiceImport_iff] at h ⊢
  obtain ⟨hfeed, head, between, behind, hhead, hbetween, hbehind, hsplit⟩ := h
  have hlines : '\n' ∉ before ++ old ++ rest := by
    simp only [List.mem_append, not_or] at hfeed ⊢
    exact ⟨⟨hfeed.1.1, hbreak⟩, hfeed.2⟩
  refine ⟨hlines, ?_⟩
  -- the piece stands behind both words, between them or before them
  rcases append_eq_barrier himport hsplit.symm with ⟨gap, hbefore, hrest⟩ | ⟨gap, hgap, hrest⟩
  · rcases append_eq_barrier hclass hrest with ⟨gap', hgap', hbehind'⟩ | ⟨gap', hbetween', hrest'⟩
    · refine ⟨head, between, gap' ++ old ++ rest, hhead, hbetween, by simp [hold], ?_⟩
      rw [hbefore, hgap']
      simp only [List.append_assoc]
    · refine ⟨head, gap ++ old ++ gap', behind, hhead, by simp [hold], hbehind, ?_⟩
      rw [hbefore, hrest']
      simp only [List.append_assoc]
  · refine ⟨before ++ old ++ gap, between, behind, by simp [hold], hbetween, hbehind, ?_⟩
    rw [hrest]
    simp only [List.append_assoc]

theorem isServiceImport_updateImport (cs : List Char) : isServiceImport (updateImport cs) = false := by
  unfold updateImport
  split
  · exact serviceImport_settled.2.1
  · rename_i hnone
    rwa [Bool.not_eq_true] at hnone

/-- No updated line is one that the rule for imports applies to. -/
theorem isServiceImport_changeLine (cs : List Char) : isServiceImport (changeLine cs) = false := by
  refine updateSignatures_keeps (P := fun cs => isServiceImport cs = false)
    (isServiceImport_updateImport _) fun s hs cs hnone => ?_
  obtain ⟨⟨hold, hbreak⟩, -, himport, hclass⟩ := signatures_pieces s hs
  unfold replaceFirst
  split
  · rename_i before rest hcut
    rw [eq_of_cut? hcut] at hnone
    by_contra hsome
    rw [Bool.not_eq_false] at hsome
    rw [isServiceImport_of_replaced hold hbreak himport hclass hsome] at hnone
    cases hnone
  · exact hnone

/-- The signatures leave a text alone, or a parenthesis stands in it. -/
theorem updateSignatures_cases (cs : List Char) :
    updateSignatures cs = cs ∨ '(' ∈ updateSignatures cs := by
  refine updateSignatures_keeps (P := fun new => new = cs ∨ '(' ∈ new) (.inl rfl)
    fun s hs new h => ?_
  unfold replaceFirst
  split
  · obtain ⟨-, ⟨-, -, -, hnew⟩, -⟩ := signatures_pieces s hs
    exact .inr (List.mem_append_left _ (List.mem_append_right _ hnew))
  · exact h

/-! Imports in a definition -/

/-- An import of the service class. -/
def importLine (indent path tail : List Char) : List Char :=
  indent ++ "from ".toList ++ path ++ " import CoreService".toList ++ tail

/-- The module that the service class is in now. -/
def serviceModule : List Char :=
  "core.services.coreservices".toList

/-- The path itself holds the words of an import of the class. -/
def IsImportLike (path : List Char) : Prop :=
  ∃ before between behind, between ≠ [] ∧
    path = before ++ "import".toList ++ between ++ "CoreService".toList ++ behind

section

variable {indent path tail : List Char} (hindent : ∀ c ∈ indent, isBlank c = true ∧ c ≠ '\n')
include hindent

theorem not_mem_indent {c : Char} (hc : isBlank c = false) : c ∉ indent := by
  intro hmem
  rw [(hindent c hmem).1] at hc
  cases hc

/-- A line that ends with the name of the class holds the words in its path or not at all. -/
theorem isImportLike_of_bare (h : isServiceImport (importLine indent path []) = true) :
    IsImportLike path := by
  obtain ⟨-, before, between, behind, -, hbetween, hbehind, hline⟩ := isServiceImport_iff.mp h
  have hclass : (before ++ "import".toList ++ between) ++ "CoreService".toList ++ behind =
      (indent ++ "from ".toList ++ path ++ " import".toList) ++ ' ' :: "CoreService".toList := by
    rw [importLine] at hline
    simpa using hline.symm
  -- the name that is followed by something is neither the last word nor the one before it
  rcases append_eq_mark (by decide) hclass with ⟨gap, hclass, -⟩ | ⟨gap, -, hend⟩
  case inr =>
    have hlength := congrArg List.length hend
    simp only [List.length_append] at hlength
    exact absurd (List.eq_nil_of_length_eq_zero (by omega)) hbehind
  have hclass : (before ++ "import".toList ++ between) ++ "CoreService".toList ++ gap =
      (indent ++ "from ".toList ++ path) ++ ' ' :: "import".toList := by
    rw [← hclass]
    simp
  rcases append_eq_mark (by decide) hclass with ⟨gap, hclass, -⟩ | ⟨gap, -, hend⟩
  case inr =>
    have hlength := congrArg List.length hend
    simp at hlength
    omega
  -- so it is in the path, because it is not before it
  have hclass : (before ++ "import".toList ++ between) ++ "CoreService".toList ++ gap =
      (indent ++ "from".toList) ++ ' ' :: path := by
    rw [← hclass]
    simp
  rcases append_eq_mark (by decide) hclass with ⟨_, hfrom, -⟩ | ⟨gap', himport, hpath⟩
  case inl =>
    have hmem : 'C' ∈ indent ++ "from".toList := by
      rw [hfrom]
      simp
    have hmem : 'C' ∈ indent := by simpa using hmem
    exact absurd hmem (not_mem_indent hindent (by decide))
  rcases append_eq_mark (by decide) himport with ⟨_, hfrom, -⟩ | ⟨gap'', -, hgap⟩
  case inl =>
    have hmem : 'i' ∈ indent ++ "from".toList := by
      rw [hfrom]
      simp
    have hmem : 'i' ∈ indent := by simpa using hmem
    exact absurd hmem (not_mem_indent hindent (by decide))
  exact ⟨gap'', between, gap, hbetween, by rw [hpath, hgap]⟩

/-- Which imports the rule for imports applies to. -/
theorem isServiceImport_importLine (hpath : '\n' ∉ path) (htail : '\n' ∉ tail) :
    isServiceImport (importLine indent path tail) = true ↔ tail ≠ [] ∨ IsImportLike path := by
  constructor
  · intro h
    cases tail with
    | nil => exact .inr (isImportLike_of_bare hindent h)
    | cons c tail => exact .inl (List.cons_ne_nil c tail)
  · intro h
    have hfeed : '\n' ∉ importLine indent path tail := by
      have hblank : '\n' ∉ indent := fun hmem => (hindent _ hmem).2 rfl
      simp [importLine, hblank, hpath, htail]
    refine isServiceImport_iff.mpr ⟨hfeed, ?_⟩
    rcases h with htail | ⟨before, between, behind, hbetween, rfl⟩
    · exact ⟨indent ++ "from ".toList ++ path ++ [' '], [' '], tail, by simp, by simp, htail,
        by simp [importLine]⟩
    · exact ⟨indent ++ "from ".toList ++ before, between,
        behind ++ " import CoreService".toList ++ tail, by simp, hbetween, by simp,
        by simp [importLine]⟩

theorem splitIndent_importLine :
    splitIndent (importLine indent path tail) =
      (indent, "from ".toList ++ path ++ " import CoreService".toList ++ tail) := by
  have hblank : ∀ c ∈ indent, isBlank c = true := fun c hc => (hindent c hc).1
  have hhead : isBlank 'f' = false := by decide
  unfold splitIndent importLine
  simp [List.takeWhile_append_of_pos hblank, List.dropWhile_append_of_pos hblank, hhead]

theorem updateAttribute_importLine :
    updateAttribute (importLine indent path tail) = importLine indent path tail := by
  unfold updateAttribute
  rw [splitIndent_importLine hindent]
  cases indent with
  | nil => rfl
  | cons b indent => rfl

theorem updateDirectories_importLine :
    updateDirectories (importLine indent path tail) = importLine indent path tail := by
  unfold updateDirectories
  rw [splitIndent_importLine hindent]
  cases indent with
  | nil => rfl
  | cons b indent => rfl

/-- An import becomes the one that is right now if the rule for imports applies to it, or if it is
that one already. -/
theorem updateLine_importLine :
    updateLine (importLine indent path tail) = some serviceImport ↔
      isServiceImport (importLine indent path tail) = true ∨
        importLine indent path tail = serviceImport := by
  have hchange : changeLine (importLine indent path tail) =
      updateSignatures (updateImport (importLine indent path tail)) := by
    unfold changeLine
    rw [updateAttribute_importLine hindent, updateDirectories_importLine hindent]
  constructor
  · intro h
    unfold updateLine at h
    split at h
    · cases h
    · rw [Option.some.injEq, hchange] at h
      unfold updateImport at h
      split at h
      · rename_i himport
        exact .inl himport
      · right
        rcases updateSignatures_cases (importLine indent path tail) with hsame | hparen
        · rw [← hsame, h]
        · rw [h] at hparen
          exact absurd hparen serviceImport_settled.1.2.2.2
  · intro h
    have himport : updateImport (importLine indent path tail) = serviceImport := by
      unfold updateImport
      rcases h with himport | hcurrent
      · rw [if_pos himport]
      · rw [hcurrent, ite_self]
    obtain ⟨-, -, hsignatures, hkept⟩ := serviceImport_settled
    unfold updateLine
    rw [hchange, himport, hsignatures, hkept]
    rfl

theorem importLine_eq_serviceImport :
    importLine indent path [] = serviceImport ↔ indent = [] ∧ path = serviceModule := by
  have hcurrent : serviceImport = importLine [] serviceModule [] := by
    unfold serviceImport importLine serviceModule
    repeat rw [String.toList_ofList]
    rfl
  constructor
  · intro h
    rw [hcurrent] at h
    have hsplit := congrArg splitIndent h
    rw [splitIndent_importLine hindent, splitIndent_importLine (by simp), Prod.mk.injEq] at hsplit
    refine ⟨hsplit.1, ?_⟩
    simpa using hsplit.2
  · rintro ⟨rfl, rfl⟩
    exact hcurrent.symm

/-- An import is normalized exactly when something follows the name of the class, or its path holds
the words of an import, or it is the right one already. An updated text holds no import of the first
two kinds. -/
theorem import_normalized_iff (hpath : '\n' ∉ path) (htail : '\n' ∉ tail) :
    (updateLine (importLine indent path tail) = some serviceImport ↔
      tail ≠ [] ∨ IsImportLike path ∨ indent = [] ∧ path = serviceModule) ∧
    ∀ text, ∀ l ∈ lines (update text), l.body = importLine indent path tail →
      tail = [] ∧ ¬ IsImportLike path := by
  have hrule := isServiceImport_importLine hindent hpath htail
  constructor
  · rw [updateLine_importLine hindent, hrule, or_assoc]
    by_cases hbare : tail = []
    · rw [hbare, importLine_eq_serviceImport hindent]
    · simp [hbare]
  · intro text l hl hbody
    rw [lines_update] at hl
    obtain ⟨old, -, hold⟩ := List.mem_filterMap.mp hl
    obtain ⟨body, hupdated, rfl⟩ := Option.map_eq_some_iff.mp hold
    unfold updateLine at hupdated
    split at hupdated
    · cases hupdated
    · cases hupdated
      have hpast := isServiceImport_changeLine old.body
      have hbody : changeLine old.body = importLine indent path tail := hbody
      rw [hbody, ← Bool.not_eq_true, hrule, not_or, not_not] at hpast
      exact hpast

end

theorem import_normalized_indented :
    updateLine "\tfrom core.service import CoreService, ServiceMode".toList = some serviceImport ∧
    ∀ text, ∀ l ∈ lines (update text),
      l.body ≠ "\tfrom core.service import CoreService, ServiceMode".toList := by
  have hline : "\tfrom core.service import CoreService, ServiceMode".toList =
      importLine ['\t'] "core.service".toList ", ServiceMode".toList := by decide +kernel
  have h := @import_normalized_iff ['\t'] "core.service".toList ", ServiceMode".toList
    (List.forall_mem_singleton.mpr (by decide)) (by decide) (by decide)
  rw [hline]
  refine ⟨h.1.mpr (.inl (by decide)), fun text l hl hbody => ?_⟩
  exact absurd (h.2 text l hl hbody).1 (by decide)

/-- Without anything behind the name of the class, an old import is left in the definition. -/
theorem bare_import_stays :
    updateLine "from core.service import CoreService".toList =
      some "from core.service import CoreService".toList ∧
    updateLine "from core.service import CoreService".toList ≠ some serviceImport ∧
    update "from core.service import CoreService\n".toList =
      "from core.service import CoreService\n".toList := by
  have hsame : updateLine "from core.service import CoreService".toList =
      some "from core.service import CoreService".toList := by decide +kernel
  rw [hsame]
  exact ⟨rfl, by decide +kernel, by decide +kernel⟩

end EmuControl.ServiceUpdate
