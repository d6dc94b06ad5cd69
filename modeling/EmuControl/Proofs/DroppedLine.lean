import EmuControl.Proofs.ServiceRule

/-!
# Lines that are dropped

Whether a line is dropped is decided after all changes have been made to it. It comes to the same as
deciding it before. `DropReason` says what has to stand in the line as it is given, and a line is
dropped exactly for such a reason, unless it imports the service class. An import of the service
class is always kept.

For no other change can make or break a reason. What the rules look for is a pattern of words, and
none of its words overlaps with anything that a change takes out of a line or puts in.
-/
namespace EmuControl.ServiceUpdate

open EmuControl.Text

/-- The words of an import of the service class stand in the line, and something stands before,
between and behind them. -/
def NamesService (line : List Char) : Prop :=
  ∃ before between behind, before ≠ [] ∧ between ≠ [] ∧ behind ≠ [] ∧
    line = before ++ "import".toList ++ between ++ "CoreService".toList ++ behind

/-- Why a line is dropped that does not import the service class. -/
inductive DropReason (line : List Char) : Prop
  | registration : "addservice(".toList <:+: line → DropReason line
  | wholeModule : "import ipaddr".toList <:+: line → DropReason line
  | submodule {before between behind : List Char} : between ≠ [] →
      line = before ++ "from".toList ++ between ++ ".ipaddr".toList ++ behind → DropReason line

/-! What the rules look for, as patterns -/

def servicePattern : List (Nat × List Char) :=
  [(1, "import".toList), (1, "CoreService".toList)]

def registrationPattern : List (Nat × List Char) :=
  [(0, "addservice(".toList)]

def modulePattern (name : List Char) : List (Nat × List Char) :=
  [(0, "import ".toList ++ name)]

def submodulePattern (name : List Char) : List (Nat × List Char) :=
  [(0, "from".toList), (1, '.' :: name)]

theorem spaced_servicePattern_iff {line : List Char} :
    Spaced 1 servicePattern line ↔ NamesService line := by
  constructor
  · rintro ⟨before, _, hbefore, rfl, between, behind, hbetween, rfl, hbehind⟩
    refine ⟨before, between, behind, List.ne_nil_of_length_pos hbefore,
      List.ne_nil_of_length_pos hbetween, List.ne_nil_of_length_pos hbehind, ?_⟩
    simp only [List.append_assoc]
  · rintro ⟨before, between, behind, hbefore, hbetween, hbehind, rfl⟩
    refine ⟨before, between ++ "CoreService".toList ++ behind, List.length_pos_of_ne_nil hbefore,
      ?_, between, behind, List.length_pos_of_ne_nil hbetween, rfl,
      List.length_pos_of_ne_nil hbehind⟩
    simp only [List.append_assoc]

theorem isServiceImport_iff_namesService {line : List Char} (hline : '\n' ∉ line) :
    isServiceImport line = true ↔ NamesService line := by
  rw [isServiceImport_iff]
  simp only [NamesService, List.append_assoc, hline, not_false_eq_true, true_and]

theorem spaced_submodulePattern_iff {name line : List Char} :
    Spaced 0 (submodulePattern name) line ↔ ∃ before between behind, between ≠ [] ∧
      line = before ++ "from".toList ++ between ++ ('.' :: name) ++ behind := by
  constructor
  · rintro ⟨before, _, -, rfl, between, behind, hbetween, rfl, -⟩
    refine ⟨before, between, behind, List.ne_nil_of_length_pos hbetween, ?_⟩
    simp only [List.append_assoc]
  · rintro ⟨before, between, behind, hbetween, rfl⟩
    refine ⟨before, between ++ ('.' :: name) ++ behind, Nat.zero_le _, ?_, between, behind,
      List.length_pos_of_ne_nil hbetween, rfl, Nat.zero_le _⟩
    simp only [List.append_assoc]

theorem registersService_iff {line : List Char} :
    registersService line = true ↔ Spaced 0 registrationPattern line := by
  rw [registersService, occurs_iff_isInfix]
  exact spaced_singleton_iff.symm

/-- In one line, a module is imported as a whole or by way of another. -/
theorem importsModule_iff {name line : List Char} (hline : '\n' ∉ line) :
    importsModule name line = true ↔
      Spaced 0 (submodulePattern name) line ∨ Spaced 0 (modulePattern name) line := by
  unfold importsModule
  rw [Bool.or_eq_true, occurs_iff_isInfix, modulePattern, spaced_singleton_iff,
    spaced_submodulePattern_iff, somewhere_iff]
  apply or_congr_left
  constructor
  · rintro ⟨before, rest, rfl, h⟩
    split at h
    · rename_i tail hfrom
      obtain ⟨behind, hgap⟩ := Option.isSome_iff_exists.mp h
      obtain ⟨between, hbetween, htail⟩ := eq_of_afterGap? hgap
      obtain ⟨more, rfl⟩ : ∃ more, tail = between ++ ('.' :: name) ++ behind ++ more :=
        ⟨tail.dropWhile (· != '\n'), by rw [← htail, List.takeWhile_append_dropWhile]⟩
      refine ⟨before, between, behind ++ more, hbetween, ?_⟩
      rw [after?_eq_some_iff.mp hfrom]
      simp only [List.append_assoc]
    · cases h
  · rintro ⟨before, between, behind, hbetween, rfl⟩
    refine ⟨before, "from".toList ++ (between ++ ('.' :: name) ++ behind),
      by simp only [List.append_assoc], ?_⟩
    have hall : ∀ c ∈ between ++ ('.' :: name) ++ behind, (c != '\n') = true := by
      intro c hc
      rw [bne_iff_ne]
      rintro rfl
      apply hline
      simp only [List.mem_append] at hc ⊢
      tauto
    have hfrom : after? "from".toList ("from".toList ++ (between ++ ('.' :: name) ++ behind)) =
        some (between ++ ('.' :: name) ++ behind) := after?_eq_some_iff.mpr rfl
    rw [hfrom]
    dsimp only
    rw [List.takeWhile_eq_self_iff.mpr hall]
    obtain ⟨skipped, hgap⟩ := exists_afterGap?_append hbetween ('.' :: name) behind
    rw [hgap, Option.isSome_some]

/-- What imports a module imports one of every shorter name. -/
theorem importsModule_of_append {name more line : List Char}
    (h : importsModule (name ++ more) line = true) : importsModule name line = true := by
  unfold importsModule at h ⊢
  rw [Bool.or_eq_true, occurs_iff_isInfix, somewhere_iff] at h ⊢
  rcases h with ⟨before, rest, hline, h⟩ | h
  · refine .inl ⟨before, rest, hline, ?_⟩
    split at h
    · rename_i tail hfrom
      obtain ⟨behind, hgap⟩ := Option.isSome_iff_exists.mp h
      obtain ⟨between, hbetween, htail⟩ := eq_of_afterGap? hgap
      obtain ⟨skipped, hshort⟩ :=
        exists_afterGap?_append hbetween ('.' :: name) (more ++ behind)
      have hsame : tail.takeWhile (· != '\n') = between ++ ('.' :: name) ++ (more ++ behind) := by
        rw [htail]
        simp
      rw [hsame, hshort, Option.isSome_some]
    · cases h
  · refine .inr (List.IsInfix.trans ?_ h)
    rw [← List.append_assoc]
    exact (List.prefix_append _ more).isInfix

theorem importsModule_ipaddress {line : List Char}
    (h : importsModule "ipaddress".toList line = true) :
    importsModule "ipaddr".toList line = true := by
  have hname : "ipaddress".toList = "ipaddr".toList ++ "ess".toList := by
    repeat rw [String.toList_ofList]
    rfl
  rw [hname] at h
  exact importsModule_of_append h

theorem isDropped_iff {line : List Char} (hline : '\n' ∉ line) :
    isDropped line = true ↔ DropReason line := by
  have hwhole : "import ".toList ++ "ipaddr".toList = "import ipaddr".toList := by
    repeat rw [String.toList_ofList]
    rfl
  have hsub : '.' :: "ipaddr".toList = ".ipaddr".toList := by
    repeat rw [String.toList_ofList]
  unfold isDropped
  rw [Bool.or_eq_true,
    or_iff_left_of_imp fun h => Bool.or_eq_true_iff.mpr (.inr (importsModule_ipaddress h)),
    Bool.or_eq_true, importsModule_iff hline, registersService_iff, registrationPattern,
    modulePattern, spaced_singleton_iff, spaced_singleton_iff, spaced_submodulePattern_iff, hwhole,
    hsub]
  constructor
  · rintro (h | ⟨before, between, behind, hbetween, h⟩ | h)
    · exact .registration h
    · exact .submodule hbetween h
    · exact .wholeModule h
  · rintro (h | h | ⟨hbetween, h⟩)
    · exact .inl h
    · exact .inr (.inr h)
    · exact .inr (.inl ⟨_, _, _, hbetween, h⟩)

/-! No change makes or breaks a reason -/

/-- No word of the pattern overlaps with what a change takes out or puts in. -/
def IsUndisturbed (words : List (Nat × List Char)) : Prop :=
  words.head?.any (fun w => decide (IsHeadSafe w.2)) = true ∧
    ∀ w ∈ words, w.1 ≤ 1 ∧ ∀ s ∈ signatures, Apart w.2 s.1 ∧ Apart w.2 s.2

instance (words : List (Nat × List Char)) : Decidable (IsUndisturbed words) :=
  inferInstanceAs (Decidable (_ ∧ _))

/-- Everything that the rules look for anywhere in a line, signatures apart. -/
def patterns : List (List (Nat × List Char)) :=
  [servicePattern, registrationPattern,
    modulePattern "ipaddr".toList, submodulePattern "ipaddr".toList,
    modulePattern "ipaddress".toList, submodulePattern "ipaddress".toList]

theorem isUndisturbed_of_mem_patterns : ∀ words ∈ patterns, IsUndisturbed words := by
  simp only [patterns, servicePattern, registrationPattern, modulePattern, submodulePattern,
    IsUndisturbed, IsHeadSafe, signatures]
  repeat rw [String.toList_ofList]
  decide +kernel

namespace IsUndisturbed

variable {words : List (Nat × List Char)} {behind : Nat}

theorem exists_head (h : IsUndisturbed words) :
    ∃ least word rest, words = (least, word) :: rest ∧ least ≤ 1 ∧ IsHeadSafe word := by
  obtain ⟨hhead, hwords⟩ := h
  cases words with
  | nil => cases hhead
  | cons w rest =>
    exact ⟨w.1, w.2, rest, rfl, (hwords w List.mem_cons_self).1, of_decide_eq_true hhead⟩

theorem updateAttribute_iff (h : IsUndisturbed words) (cs : List Char) :
    Spaced behind words (updateAttribute cs) ↔ Spaced behind words cs := by
  obtain ⟨least, word, rest, rfl, hleast, hsafe⟩ := h.exists_head
  exact hsafe.updateAttribute_iff hleast cs

theorem updateDirectories_iff (h : IsUndisturbed words) (cs : List Char) :
    Spaced behind words (updateDirectories cs) ↔ Spaced behind words cs := by
  obtain ⟨least, word, rest, rfl, hleast, hsafe⟩ := h.exists_head
  exact hsafe.updateDirectories_iff hleast cs

theorem replaceFirst_iff (h : IsUndisturbed words) (hbehind : behind ≤ 1)
    {s : List Char × List Char} (hs : s ∈ signatures) (cs : List Char) :
    Spaced behind words (replaceFirst s.1 s.2 cs) ↔ Spaced behind words cs := by
  have hnew := (signatures_shape s hs).newNonempty
  have hold := (signatures_shape s hs).shrinks
  have hleast : ∀ w ∈ words, w.1 ≤ s.1.length ∧ w.1 ≤ s.2.length := fun w hw => by
    have := (h.2 w hw).1
    omega
  constructor
  · exact Spaced.of_replaceFirst (by omega) fun w hw =>
      ⟨(hleast w hw).1, ((h.2 w hw).2 s hs).2⟩
  · exact Spaced.replaceFirst (by omega) fun w hw => ⟨(hleast w hw).2, ((h.2 w hw).2 s hs).1⟩

end IsUndisturbed

/-- The change breaks no line, and it neither gives a line a reason to be dropped nor takes one
away. -/
structure KeepsReasons (change : List Char → List Char) : Prop where
  noLineFeed {cs : List Char} : '\n' ∉ cs → '\n' ∉ change cs
  registersService (cs : List Char) : registersService (change cs) = registersService cs
  importsModule {cs : List Char} : '\n' ∉ cs → ∀ name ∈ ["ipaddr".toList, "ipaddress".toList],
    importsModule name (change cs) = importsModule name cs

theorem keepsReasons_of_spaced {change : List Char → List Char}
    (hreplaces : ∀ cs, Replaces cs (change cs))
    (h : ∀ words ∈ patterns, ∀ cs, Spaced 0 words (change cs) ↔ Spaced 0 words cs) :
    KeepsReasons change := by
  have hline {cs : List Char} (hcs : '\n' ∉ cs) : '\n' ∉ change cs := (hreplaces cs).noLineFeed hcs
  refine ⟨hline, fun cs => ?_, fun {cs} hcs name hname => ?_⟩
  · rw [Bool.eq_iff_iff, registersService_iff, registersService_iff,
      h registrationPattern (by simp [patterns])]
  · have hpatterns : modulePattern name ∈ patterns ∧ submodulePattern name ∈ patterns := by
      rcases List.mem_pair.mp hname with rfl | rfl <;> simp [patterns]
    rw [Bool.eq_iff_iff, importsModule_iff hcs, importsModule_iff (hline hcs), h _ hpatterns.1,
      h _ hpatterns.2]

theorem updateAttribute_keepsReasons : KeepsReasons updateAttribute :=
  keepsReasons_of_spaced updateAttribute_replaces fun words hwords =>
    (isUndisturbed_of_mem_patterns words hwords).updateAttribute_iff

theorem updateDirectories_keepsReasons : KeepsReasons updateDirectories :=
  keepsReasons_of_spaced updateDirectories_replaces fun words hwords =>
    (isUndisturbed_of_mem_patterns words hwords).updateDirectories_iff

theorem replaceFirst_keepsReasons {s : List Char × List Char} (hs : s ∈ signatures) :
    KeepsReasons (replaceFirst s.1 s.2) := by
  obtain ⟨-, ⟨hnonempty, hnoFeed, hnoReturn, -⟩, -⟩ := signatures_pieces s hs
  exact keepsReasons_of_spaced (replaceFirst_replaces hnonempty hnoFeed hnoReturn)
    fun words hwords => (isUndisturbed_of_mem_patterns words hwords).replaceFirst_iff
      (Nat.zero_le 1) hs

theorem KeepsReasons.isDropped {change : List Char → List Char} (h : KeepsReasons change)
    {cs : List Char} (hcs : '\n' ∉ cs) : isDropped (change cs) = isDropped cs := by
  unfold ServiceUpdate.isDropped
  rw [h.registersService, h.importsModule hcs _ List.mem_cons_self,
    h.importsModule hcs "ipaddress".toList (by simp)]

theorem updateSignatures_keepsReasons {cs : List Char} (hcs : '\n' ∉ cs) :
    '\n' ∉ updateSignatures cs ∧ isDropped (updateSignatures cs) = isDropped cs := by
  refine updateSignatures_keeps (P := fun new => '\n' ∉ new ∧ isDropped new = isDropped cs)
    ⟨hcs, rfl⟩ fun s hs new hnew => ?_
  have hkeeps := replaceFirst_keepsReasons hs
  exact ⟨hkeeps.noLineFeed hnew.1, by rw [hkeeps.isDropped hnew.1, hnew.2]⟩

/-- The line as the rule for imports finds it. -/
def changeHead (line : List Char) : List Char :=
  updateDirectories (updateAttribute line)

theorem changeHead_noLineFeed {line : List Char} (hline : '\n' ∉ line) : '\n' ∉ changeHead line :=
  updateDirectories_keepsReasons.noLineFeed (updateAttribute_keepsReasons.noLineFeed hline)

theorem isDropped_changeHead {line : List Char} (hline : '\n' ∉ line) :
    isDropped (changeHead line) = isDropped line := by
  unfold changeHead
  rw [updateDirectories_keepsReasons.isDropped (updateAttribute_keepsReasons.noLineFeed hline),
    updateAttribute_keepsReasons.isDropped hline]

theorem isServiceImport_changeHead {line : List Char} (hline : '\n' ∉ line) :
    isServiceImport (changeHead line) = true ↔ NamesService line := by
  have hundisturbed := isUndisturbed_of_mem_patterns servicePattern List.mem_cons_self
  rw [isServiceImport_iff_namesService (changeHead_noLineFeed hline), ← spaced_servicePattern_iff,
    ← spaced_servicePattern_iff]
  unfold changeHead
  rw [hundisturbed.updateDirectories_iff, hundisturbed.updateAttribute_iff]

theorem changeLine_of_namesService {line : List Char} (hline : '\n' ∉ line)
    (h : NamesService line) : changeLine line = serviceImport := by
  have himport : updateImport (changeHead line) = serviceImport :=
    if_pos ((isServiceImport_changeHead hline).mpr h)
  exact (congrArg updateSignatures himport).trans serviceImport_settled.2.2.1

theorem changeLine_of_not_namesService {line : List Char} (hline : '\n' ∉ line)
    (h : ¬ NamesService line) : changeLine line = updateSignatures (changeHead line) :=
  congrArg updateSignatures (if_neg (mt (isServiceImport_changeHead hline).mp h))

/-- Only an import of the service class loses its reasons. -/
theorem isDropped_changeLine {line : List Char} (hline : '\n' ∉ line) :
    isDropped (changeLine line) = true ↔ ¬ NamesService line ∧ isDropped line = true := by
  by_cases h : NamesService line
  · simp [changeLine_of_namesService hline h, serviceImport_settled.2.2.2, h]
  · rw [changeLine_of_not_namesService hline h,
      (updateSignatures_keepsReasons (changeHead_noLineFeed hline)).2, isDropped_changeHead hline]
    simp [h]

theorem updateLine_eq_none_iff {line : List Char} :
    updateLine line = none ↔ isDropped (changeLine line) = true := by
  unfold updateLine
  split <;> simp_all

/-- A line is dropped exactly when there is a reason to drop it and it does not import the service
class. An import of the service class is kept. No other change makes or breaks a reason, and a line
that imports the longer one of the two modules imports the shorter one. -/
theorem line_dropped_iff {line : List Char} (hline : '\n' ∉ line) :
    (updateLine line = none ↔ ¬ NamesService line ∧ DropReason line) ∧
    (NamesService line → updateLine line = some serviceImport) ∧
    KeepsReasons updateAttribute ∧ KeepsReasons updateDirectories ∧
    (∀ s ∈ signatures, KeepsReasons (replaceFirst s.1 s.2)) ∧
    (importsModule "ipaddress".toList line = true → importsModule "ipaddr".toList line = true) := by
  refine ⟨?_, ?_, updateAttribute_keepsReasons, updateDirectories_keepsReasons,
    fun s hs => replaceFirst_keepsReasons hs, importsModule_ipaddress⟩
  · rw [updateLine_eq_none_iff, isDropped_changeLine hline, isDropped_iff hline]
  · intro hservice
    have hstays : ¬ isDropped (changeLine line) = true := by
      rw [isDropped_changeLine hline]
      exact fun hdropped => hdropped.1 hservice
    rw [updateLine, if_neg hstays, changeLine_of_namesService hline hservice]

/-- Neither an underscore nor the longer name saves a line, and one that imports the service class
is kept with every reason against it. -/
theorem ipaddress_dropped_service_kept :
    updateLine "\t_from core.misc.ipaddress import MacAddress".toList = none ∧
    updateLine " import ipaddr, CoreService, addservice(".toList = some serviceImport := by
  have hdropped := line_dropped_iff
    (show '\n' ∉ "\t_from core.misc.ipaddress import MacAddress".toList by decide +kernel)
  have hkept := line_dropped_iff
    (show '\n' ∉ " import ipaddr, CoreService, addservice(".toList by decide +kernel)
  constructor
  · refine hdropped.1.mpr ⟨?_, ?_⟩
    · rw [← isServiceImport_iff_namesService (by decide +kernel)]
      decide +kernel
    · exact .submodule (List.cons_ne_nil ' ' "core.misc".toList)
        (show _ = "\t_".toList ++ "from".toList ++ " core.misc".toList ++ ".ipaddr".toList ++
          "ess import MacAddress".toList by decide +kernel)
  · exact hkept.2.1 ⟨" ".toList, " ipaddr, ".toList, ", addservice(".toList, by decide, by decide,
      by decide, by decide +kernel⟩

end EmuControl.ServiceUpdate
