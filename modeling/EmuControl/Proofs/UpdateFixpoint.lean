import EmuControl.Proofs.DroppedLine

/-!
# Updating what has been updated

After an update no rule applies to a line any more, except those for signatures. They replace the
first occurrence of each signature only, so a signature that stands in a line more than once is left
over, and the next update goes on with it. `RenewsFirst` describes that in one pass over the line,
while the rules themselves go over it once for each signature: as no signature overlaps with another
or with a new one, the order does not matter.

So a definition that holds no old signature after an update stays as it is from then on.
-/
namespace EmuControl.ServiceUpdate

open EmuControl.Text

/-! The rules that look at the head of a line -/

theorem not_isAttribute_updateAttribute (cs : List Char) : ¬ IsAttribute (updateAttribute cs) := by
  rcases updateAttribute_cases cs with ⟨hnot, hsame⟩ | ⟨indent, c, rest, hindent, hc, -, hupdated⟩
  · rwa [hsame]
  · rw [hupdated]
    rintro ⟨indent', c', rest', hindent', -, h⟩
    have hsolid : (c :: rest).head?.any (!isBlank ·) = true := by
      simp [isBlank_of_isLowerLetter hc]
    have htail := indent_append_inj hindent hindent' hsolid rfl h
    rw [(List.cons.inj htail).1] at hc
    exact absurd hc (by decide)

theorem not_isAttribute_updateDirectories {cs : List Char} (h : ¬ IsAttribute cs) :
    ¬ IsAttribute (updateDirectories cs) := by
  rcases updateDirectories_cases cs with ⟨-, hsame⟩ | ⟨indent, rest, hindent, -, hupdated⟩
  · rwa [hsame]
  · rw [hupdated, List.append_assoc]
    rintro ⟨indent', c', rest', hindent', -, hsplit⟩
    have htail := indent_append_inj hindent hindent' rfl rfl hsplit
    exact absurd (List.cons.inj htail).1 (by decide)

theorem not_isDirectories_updateDirectories (cs : List Char) :
    ¬ IsDirectories (updateDirectories cs) := by
  rcases updateDirectories_cases cs with ⟨hnot, hsame⟩ | ⟨indent, rest, hindent, -, hupdated⟩
  · rwa [hsame]
  · rw [hupdated]
    rintro ⟨indent', rest', hindent', hsplit⟩
    rw [List.append_assoc, List.append_assoc] at hsplit
    have htail := indent_append_inj hindent hindent' rfl rfl hsplit
    have hfour : "dire".toList = "dirs".toList := congrArg (List.take 4) htail
    exact absurd hfour (by decide)

/-- The import of the service class is not indented. -/
theorem serviceImport_ne_indented {indent : List Char} (hindent : IsIndent indent)
    (rest : List Char) : serviceImport ≠ indent ++ rest := by
  obtain ⟨b, indent, rfl⟩ := List.exists_cons_of_ne_nil hindent.1
  intro h
  have hfirst : 'f' = b := (List.cons.inj h).1
  have hblank := hindent.2 b List.mem_cons_self
  rw [← hfirst] at hblank
  exact absurd hblank (by decide)

/-- The rule for imports leaves a line alone or makes one line of it. -/
theorem updateImport_keeps {P : List Char → Prop} {cs : List Char} (h : P cs)
    (himport : P serviceImport) : P (updateImport cs) := by
  unfold updateImport
  split
  · exact himport
  · exact h

theorem d_not_mem_indent {indent : List Char} (h : IsIndent indent) : 'd' ∉ indent := by
  intro hmem
  exact absurd (h.2 'd' hmem) (by decide)

/-- A signature that is changed at the head of a line goes on beginning with a letter. -/
theorem isAttribute_of_replaceFirst {s : List Char × List Char} (hs : s ∈ signatures)
    {cs : List Char} (h : IsAttribute (replaceFirst s.1 s.2 cs)) : IsAttribute cs := by
  obtain ⟨old, hold⟩ := List.head?_eq_some_iff.mp (signatures_shape s hs).oldFirst
  obtain ⟨new, hnew⟩ := List.head?_eq_some_iff.mp (signatures_shape s hs).newFirst
  unfold replaceFirst at h
  split at h
  · rename_i before behind hcut
    obtain ⟨indent, c, rest, hindent, hc, hsplit⟩ := h
    rw [eq_of_cut? hcut, hold]
    rw [hnew] at hsplit
    have hmark : indent ++ ['_'] ++ (c :: rest) = before ++ 'd' :: (new ++ behind) := by
      simpa using hsplit.symm
    rcases append_eq_mark (by decide) hmark with ⟨between, rfl, hbetween⟩ | ⟨between, hbefore, -⟩
    · -- the underscore stands before the signature, and so does the letter unless it is its first
      cases between with
      | nil =>
        exact ⟨indent, 'd', old ++ behind, hindent, by decide, by simp⟩
      | cons b between =>
        obtain ⟨rfl, -⟩ := List.cons.inj hbetween
        exact ⟨indent, c, between ++ 'd' :: (old ++ behind), hindent, hc, by simp⟩
    · exact absurd (hbefore ▸ by simp) (d_not_mem_indent hindent)
  · exact h

theorem isDirectories_of_replaceFirst {s : List Char × List Char} (hs : s ∈ signatures)
    {cs : List Char} (h : IsDirectories (replaceFirst s.1 s.2 cs)) : IsDirectories cs := by
  obtain ⟨new, hnew⟩ := List.head?_eq_some_iff.mp (signatures_shape s hs).newFirst
  unfold replaceFirst at h
  split at h
  · rename_i before behind hcut
    obtain ⟨indent, rest, hindent, hsplit⟩ := h
    rw [eq_of_cut? hcut]
    rcases (signatures_shape s hs).apartDirs.append_eq hsplit.symm with
      ⟨between, rfl, -⟩ | ⟨between, hbefore, -⟩
    · exact ⟨indent, between ++ s.1 ++ behind, hindent, by simp only [List.append_assoc]⟩
    · rw [hnew] at hbefore
      exact absurd (hbefore ▸ by simp) (d_not_mem_indent hindent)
  · exact h

theorem not_isAttribute_changeLine (line : List Char) : ¬ IsAttribute (changeLine line) := by
  refine updateSignatures_keeps (P := fun cs => ¬ IsAttribute cs) ?_
    fun s hs cs hcs h => hcs (isAttribute_of_replaceFirst hs h)
  refine updateImport_keeps (P := fun cs => ¬ IsAttribute cs)
    (not_isAttribute_updateDirectories (not_isAttribute_updateAttribute line)) ?_
  rintro ⟨indent, c, rest, hindent, -, h⟩
  exact serviceImport_ne_indented hindent _ h

theorem not_isDirectories_changeLine (line : List Char) : ¬ IsDirectories (changeLine line) := by
  refine updateSignatures_keeps (P := fun cs => ¬ IsDirectories cs) ?_
    fun s hs cs hcs h => hcs (isDirectories_of_replaceFirst hs h)
  refine updateImport_keeps (P := fun cs => ¬ IsDirectories cs)
    (not_isDirectories_updateDirectories _) ?_
  rintro ⟨indent, rest, hindent, h⟩
  rw [List.append_assoc] at h
  exact serviceImport_ne_indented hindent _ h

/-- A line to which no other rule applies is left to those for signatures. -/
theorem changeLine_of_settled {line : List Char} (hattribute : ¬ IsAttribute line)
    (hdirectories : ¬ IsDirectories line) (himport : isServiceImport line = false) :
    changeLine line = updateSignatures line := by
  have hattribute : updateAttribute line = line := by
    rcases updateAttribute_cases line with ⟨-, hsame⟩ | ⟨_, _, _, hi, hc, h, -⟩
    · exact hsame
    · exact absurd ⟨_, _, _, hi, hc, h⟩ hattribute
  have hdirectories : updateDirectories line = line := by
    rcases updateDirectories_cases line with ⟨-, hsame⟩ | ⟨_, _, hi, h, -⟩
    · exact hsame
    · exact absurd ⟨_, _, hi, h⟩ hdirectories
  have himport : updateImport line = line := if_neg (Bool.eq_false_iff.mp himport)
  rw [changeLine, hattribute, hdirectories, himport]

/-- Of all rules, only those for signatures find something to do a second time. -/
theorem changeLine_changeLine (line : List Char) :
    changeLine (changeLine line) = updateSignatures (changeLine line) :=
  changeLine_of_settled (not_isAttribute_changeLine line) (not_isDirectories_changeLine line)
    (isServiceImport_changeLine line)

/-! What the rules for signatures do -/

/-- Of each pending signature, the first occurrence is replaced. A signature that has been replaced
is no longer pending. -/
inductive RenewsFirst : (pending : List (List Char × List Char)) → List Char → List Char → Prop
  | nil (pending : List (List Char × List Char)) : RenewsFirst pending [] []
  | renew {pending : List (List Char × List Char)} {s : List Char × List Char}
      {rest rest' : List Char} : s ∈ pending → RenewsFirst (pending.erase s) rest rest' →
      RenewsFirst pending (s.1 ++ rest) (s.2 ++ rest')
  | keep {pending : List (List Char × List Char)} {c : Char} {rest rest' : List Char} :
      (∀ s ∈ pending, ¬ s.1 <+: c :: rest) → RenewsFirst pending rest rest' →
      RenewsFirst pending (c :: rest) (c :: rest')

/-- The rules for some of the signatures, one after the other. -/
def renewEach (pending : List (List Char × List Char)) (cs : List Char) : List Char :=
  pending.foldl (fun cs s => replaceFirst s.1 s.2 cs) cs

/-- No signature overlaps with another, nor with a new one. -/
theorem signatures_apart : ∀ s ∈ signatures, ∀ s' ∈ signatures,
    Apart s.1 s'.2 ∧ (s ≠ s' → Apart s.1 s'.1) := by
  unfold signatures
  repeat rw [String.toList_ofList]
  decide +kernel

theorem signature_ne_nil {s : List Char × List Char} (hs : s ∈ signatures) : s.1 ≠ [] :=
  List.ne_nil_of_length_pos (Nat.zero_lt_of_lt (signatures_shape s hs).shrinks)

theorem renewEach_append {pending : List (List Char × List Char)} {piece : List Char}
    (hclear : ∀ s ∈ pending, Clear s.1 piece) (cs : List Char) :
    renewEach pending (piece ++ cs) = piece ++ renewEach pending cs := by
  induction pending generalizing cs with
  | nil => rfl
  | cons s pending ih =>
    rw [List.forall_mem_cons] at hclear
    change renewEach pending (replaceFirst s.1 s.2 (piece ++ cs)) = _
    rw [hclear.1.replaceFirst_append, ih hclear.2]
    rfl

section

variable {pending : List (List Char × List Char)} (hpending : ∀ s ∈ pending, s ∈ signatures)
include hpending

theorem renewEach_nil : renewEach pending [] = [] := by
  induction pending with
  | nil => rfl
  | cons s pending ih =>
    rw [List.forall_mem_cons] at hpending
    have hnone : replaceFirst s.1 s.2 [] = [] := by
      obtain ⟨c, rest, hc⟩ := List.exists_cons_of_ne_nil (signature_ne_nil hpending.1)
      rw [hc]
      rfl
    change renewEach pending (replaceFirst s.1 s.2 []) = []
    rw [hnone, ih hpending.2]

/-- A signature at the head of a text is renewed, and the others do not touch it. -/
theorem renewEach_signature {s : List Char × List Char} (hs : s ∈ pending) (cs : List Char) :
    renewEach pending (s.1 ++ cs) = s.2 ++ renewEach (pending.erase s) cs := by
  have hsignature := hpending s hs
  induction pending generalizing cs with
  | nil => cases hs
  | cons p pending ih =>
    rw [List.forall_mem_cons] at hpending
    change renewEach pending (replaceFirst p.1 p.2 (s.1 ++ cs)) = _
    by_cases hp : p = s
    · subst hp
      have hclear : ∀ q ∈ pending, Clear q.1 p.2 := fun q hq =>
        (signatures_apart q (hpending.2 q hq) p hsignature).1.1
      rw [replaceFirst_append_self (signature_ne_nil hsignature), renewEach_append hclear,
        List.erase_cons_head]
    · have hclear : Clear p.1 s.1 := ((signatures_apart p hpending.1 s hsignature).2 hp).1
      have hrest : s ∈ pending := List.mem_of_ne_of_mem (Ne.symm hp) hs
      rw [hclear.replaceFirst_append, ih hpending.2 hrest, List.erase_cons_tail (by simpa using hp)]
      rfl

/-- A character at which no signature begins stays at the head. -/
theorem renewEach_cons {c : Char} {cs : List Char} (h : ∀ s ∈ pending, ¬ s.1 <+: c :: cs) :
    renewEach pending (c :: cs) = c :: renewEach pending cs := by
  induction pending generalizing cs with
  | nil => rfl
  | cons p pending ih =>
    rw [List.forall_mem_cons] at hpending h
    change renewEach pending (replaceFirst p.1 p.2 (c :: cs)) = _
    rw [replaceFirst_cons h.1]
    refine ih hpending.2 fun q hq hhead => h.2 q hq ?_
    -- what stands at the head after a replacement stood there before it
    unfold replaceFirst at hhead
    split at hhead
    · rename_i before rest hcut
      obtain ⟨tail, htail⟩ := hhead
      have hsplit : [] ++ q.1 ++ tail = (c :: before) ++ p.2 ++ rest := by simpa using htail
      have hapart := (signatures_apart q (hpending.2 q hq) p hpending.1).1
      rcases hapart.append_eq hsplit with ⟨between, hhead, -⟩ | ⟨between, hnil, -⟩
      · refine ⟨between ++ p.1 ++ rest, ?_⟩
        rw [eq_of_cut? hcut, List.append_assoc, List.append_assoc, ← List.cons_append, hhead]
        simp only [List.nil_append, List.append_assoc]
      · cases hnil
    · exact hhead

theorem renewsFirst_renewEach (cs : List Char) : RenewsFirst pending cs (renewEach pending cs) := by
  induction hlength : cs.length using Nat.strong_induction_on generalizing cs pending with
  | _ n ih =>
    subst hlength
    by_cases hfound : ∃ s ∈ pending, s.1 <+: cs
    · obtain ⟨s, hs, rest, rfl⟩ := hfound
      have hshorter : rest.length < (s.1 ++ rest).length := by
        have hpositive := List.length_pos_of_ne_nil (signature_ne_nil (hpending s hs))
        rw [List.length_append]
        omega
      rw [renewEach_signature hpending hs]
      refine .renew hs (ih _ hshorter (fun t ht => ?_) rest rfl)
      exact hpending t (List.mem_of_mem_erase ht)
    · have hnone : ∀ s ∈ pending, ¬ s.1 <+: cs := fun s hs h => hfound ⟨s, hs, h⟩
      cases cs with
      | nil =>
        rw [renewEach_nil hpending]
        exact .nil pending
      | cons c rest =>
        rw [renewEach_cons hpending hnone]
        exact .keep hnone (ih _ (Nat.lt_succ_self _) hpending rest rfl)

end

theorem RenewsFirst.result {pending : List (List Char × List Char)} {cs new : List Char}
    (h : RenewsFirst pending cs new) (hpending : ∀ s ∈ pending, s ∈ signatures) :
    new = renewEach pending cs := by
  induction h with
  | nil pending => exact (renewEach_nil hpending).symm
  | renew hs _ ih =>
    rw [renewEach_signature hpending hs, ih fun t ht => hpending t (List.mem_of_mem_erase ht)]
  | keep hnone _ ih => rw [renewEach_cons hpending hnone, ih hpending]

/-- A text in which something pending stands gets shorter, and any other stays as it is. -/
theorem RenewsFirst.cases_length {pending : List (List Char × List Char)} {cs new : List Char}
    (h : RenewsFirst pending cs new) (hpending : ∀ s ∈ pending, s ∈ signatures) :
    (new = cs ∧ ∀ s ∈ pending, ¬ s.1 <:+: cs) ∨
      (new.length < cs.length ∧ ∃ s ∈ pending, s.1 <:+: cs) := by
  induction h with
  | nil pending =>
    refine .inl ⟨rfl, fun s hs hstands => ?_⟩
    exact signature_ne_nil (hpending s hs) (List.infix_nil.mp hstands)
  | @renew pending s rest rest' hs _ ih =>
    have hshrinks := (signatures_shape s (hpending s hs)).shrinks
    have hrest : rest'.length ≤ rest.length := by
      rcases ih fun t ht => hpending t (List.mem_of_mem_erase ht) with ⟨rfl, -⟩ | ⟨hlt, -⟩
      · exact Nat.le_refl _
      · exact Nat.le_of_lt hlt
    refine .inr ⟨?_, s, hs, (List.prefix_append s.1 rest).isInfix⟩
    simp only [List.length_append]
    omega
  | @keep pending c rest rest' hnone _ ih =>
    rcases ih hpending with ⟨rfl, habsent⟩ | ⟨hlt, s, hs, hstands⟩
    · refine .inl ⟨rfl, fun s hs hstands => ?_⟩
      rcases List.infix_cons_iff.mp hstands with hhead | hstands
      · exact hnone s hs hhead
      · exact habsent s hs hstands
    · exact .inr ⟨Nat.succ_lt_succ hlt, s, hs, hstands.trans (List.suffix_cons c rest).isInfix⟩

theorem renewsFirst_iff {cs new : List Char} :
    RenewsFirst signatures cs new ↔ new = updateSignatures cs := by
  constructor
  · intro h
    exact h.result fun _ hs => hs
  · rintro rfl
    exact renewsFirst_renewEach (fun _ hs => hs) cs

theorem updateSignatures_eq_self_iff {cs : List Char} :
    updateSignatures cs = cs ↔ ∀ s ∈ signatures, ¬ s.1 <:+: cs := by
  have hrenews : RenewsFirst signatures cs (updateSignatures cs) := renewsFirst_iff.mpr rfl
  rcases hrenews.cases_length fun _ hs => hs with ⟨hsame, habsent⟩ | ⟨hlt, s, hs, hstands⟩
  · exact iff_of_true hsame habsent
  · refine iff_of_false (fun hsame => ?_) fun habsent => habsent s hs hstands
    rw [hsame] at hlt
    exact absurd hlt (Nat.lt_irrefl _)

/-! Which signatures are left over -/

/-- Renewing signatures makes no pattern whose words stay clear of the new ones. -/
theorem spaced_of_renewEach {words : List (Nat × List Char)}
    (hwords : ∀ w ∈ words, w.1 = 0 ∧ ∀ s ∈ signatures, Apart w.2 s.2)
    {pending : List (List Char × List Char)} (hpending : ∀ s ∈ pending, s ∈ signatures)
    {cs : List Char} (h : Spaced 0 words (renewEach pending cs)) : Spaced 0 words cs := by
  induction pending generalizing cs with
  | nil => exact h
  | cons p pending ih =>
    rw [List.forall_mem_cons] at hpending
    refine Spaced.of_replaceFirst (Nat.zero_le _) (fun w hw => ?_) (ih hpending.2 h)
    obtain ⟨hleast, hapart⟩ := hwords w hw
    exact ⟨by omega, hapart p hpending.1⟩

/-- What is still there after its first occurrence has been replaced was there twice. -/
theorem spaced_twice_of_replaceFirst {s : List Char × List Char} (hs : s ∈ signatures)
    {cs : List Char} (h : s.1 <:+: replaceFirst s.1 s.2 cs) :
    Spaced 0 [(0, s.1), (0, s.1)] cs := by
  unfold replaceFirst at h
  split at h
  · rename_i before rest hcut
    obtain ⟨left, right, hsplit⟩ := h
    rw [eq_of_cut? hcut]
    rcases (signatures_apart s hs s hs).1.append_eq hsplit with
      ⟨between, rfl, -⟩ | ⟨between, -, rfl⟩
    · refine ⟨left, between ++ s.1 ++ rest, Nat.zero_le _, by simp only [List.append_assoc], ?_⟩
      exact spaced_singleton_iff.mpr ⟨between, rest, rfl⟩
    · refine ⟨before, between ++ s.1 ++ right, Nat.zero_le _, rfl, ?_⟩
      exact spaced_singleton_iff.mpr ⟨between, right, rfl⟩
  · rename_i hnone
    have hoccurs := occurs_iff_isInfix.mpr h
    rw [occurs, hnone] at hoccurs
    cases hoccurs

theorem spaced_twice_of_renewEach {s : List Char × List Char} (hs : s ∈ signatures)
    {pending : List (List Char × List Char)} (hpending : ∀ s ∈ pending, s ∈ signatures)
    (hmem : s ∈ pending) {cs : List Char} (h : s.1 <:+: renewEach pending cs) :
    Spaced 0 [(0, s.1), (0, s.1)] cs := by
  have hapart : ∀ s' ∈ signatures, Apart s.1 s'.2 := fun s' hs' => (signatures_apart s hs s' hs').1
  induction pending generalizing cs with
  | nil => cases hmem
  | cons p pending ih =>
    rw [List.forall_mem_cons] at hpending
    by_cases hp : p = s
    · subst hp
      apply spaced_twice_of_replaceFirst hs
      rw [← spaced_singleton_iff] at h ⊢
      exact spaced_of_renewEach (by simpa using hapart) hpending.2 h
    · have hrest : s ∈ pending := List.mem_of_ne_of_mem (Ne.symm hp) hmem
      refine Spaced.of_replaceFirst (Nat.zero_le _) ?_ (ih hpending.2 hrest h)
      simpa using hapart p hpending.1

/-- A signature that is left over stood in the line more than once. -/
theorem spaced_twice_of_changeLine {line : List Char} (hline : '\n' ∉ line)
    {s : List Char × List Char} (hs : s ∈ signatures) (h : s.1 <:+: changeLine line) :
    Spaced 0 [(0, s.1), (0, s.1)] line := by
  by_cases hservice : NamesService line
  · rw [changeLine_of_namesService hline hservice] at h
    exact absurd h (updateSignatures_eq_self_iff.mp serviceImport_settled.2.2.1 s hs)
  · rw [changeLine_of_not_namesService hline hservice] at h
    have htwice := spaced_twice_of_renewEach hs (fun _ ht => ht) hs h
    have hsafe := (signatures_shape s hs).headSafe
    unfold changeHead at htwice
    rwa [hsafe.updateDirectories_iff (Nat.zero_le 1), hsafe.updateAttribute_iff (Nat.zero_le 1)]
      at htwice

/-! Updating once more -/

theorem updateLine_eq_some_iff {line out : List Char} :
    updateLine line = some out ↔ isDropped (changeLine line) = false ∧ out = changeLine line := by
  unfold updateLine
  split
  · rename_i hdropped
    simp [hdropped]
  · rename_i hkept
    rw [Bool.not_eq_true] at hkept
    rw [Option.some.injEq]
    exact ⟨fun h => ⟨hkept, h.symm⟩, fun h => h.2.symm⟩

theorem changeLine_noLineFeed {line : List Char} (hline : '\n' ∉ line) : '\n' ∉ changeLine line :=
  (updateSignatures_keepsReasons
    ((updateImport_replaces _).noLineFeed (changeHead_noLineFeed hline))).1

/-- A line that was kept is kept, with the next signatures renewed. -/
theorem updateLine_updated {line out : List Char} (hline : '\n' ∉ line)
    (h : updateLine line = some out) : updateLine out = some (updateSignatures out) := by
  obtain ⟨hkept, rfl⟩ := updateLine_eq_some_iff.mp h
  refine updateLine_eq_some_iff.mpr ⟨?_, (changeLine_changeLine line).symm⟩
  rw [changeLine_changeLine, (updateSignatures_keepsReasons (changeLine_noLineFeed hline)).2, hkept]

theorem updateLine_updated_eq_self_iff {line out : List Char} (hline : '\n' ∉ line)
    (h : updateLine line = some out) :
    updateLine out = some out ↔ ∀ s ∈ signatures, ¬ s.1 <:+: out := by
  rw [updateLine_updated hline h, Option.some.injEq, updateSignatures_eq_self_iff]

/-- A text whose lines stay as they are stays as it is. -/
theorem update_eq_self {text : List Char} (h : ∀ l ∈ lines text, updateLine l.body = some l.body) :
    update text = text := by
  have hlines : (lines text).flatMap updateWhole = (lines text).flatMap Line.text := by
    refine List.flatMap_congr fun l hl => ?_
    have hsame : updatedLine? l = some l := by
      rw [updatedLine?, h l hl]
      rfl
    rw [updateWhole_eq, hsame]
    exact List.flatMap_singleton ..
  rw [update, hlines, flatMap_lines]

/-- Nothing but signatures that stood in a line more than once is left to do after an update: no
other rule applies to an updated line, it changes exactly when such a signature stands in it, and
then the next occurrence of each signature is renewed. A text without old signatures stays as it
is. -/
theorem update_settles :
    (∀ line out, '\n' ∉ line → updateLine line = some out →
      ¬ IsAttribute out ∧ ¬ IsDirectories out ∧ ¬ NamesService out ∧ ¬ DropReason out ∧
      (updateLine out = some out ↔ ∀ s ∈ signatures, ¬ s.1 <:+: out) ∧
      (∀ next, updateLine out = some next ↔ RenewsFirst signatures out next) ∧
      ∀ s ∈ signatures, s.1 <:+: out →
        ∃ before between behind, line = before ++ s.1 ++ between ++ s.1 ++ behind) ∧
    ∀ text, (∀ s ∈ signatures, ¬ s.1 <:+: update text) → update (update text) = update text := by
  constructor
  · intro line out hline h
    have hagain := updateLine_updated hline h
    have hfixed := updateLine_updated_eq_self_iff hline h
    obtain ⟨hkept, rfl⟩ := updateLine_eq_some_iff.mp h
    have hbreak := changeLine_noLineFeed hline
    refine ⟨not_isAttribute_changeLine line, not_isDirectories_changeLine line, ?_, ?_, hfixed,
      fun next => ?_, fun s hs hleft => ?_⟩
    · rw [← isServiceImport_iff_namesService hbreak, isServiceImport_changeLine]
      exact Bool.false_ne_true
    · rw [← isDropped_iff hbreak, hkept]
      exact Bool.false_ne_true
    · rw [hagain, renewsFirst_iff, Option.some.injEq, eq_comm]
    · obtain ⟨before, _, -, rfl, between, behind, -, rfl, -⟩ :=
        spaced_twice_of_changeLine hline hs hleft
      exact ⟨before, between, behind, by simp only [List.append_assoc]⟩
  · intro text habsent
    apply update_eq_self
    intro l hl
    have hpart : l.body <:+: update text := by
      obtain ⟨before, behind, hsplit⟩ := List.append_of_mem hl
      refine ⟨before.flatMap Line.text, l.terminator ++ behind.flatMap Line.text, ?_⟩
      rw [← flatMap_lines (update text), hsplit]
      simp [Line.text]
    rw [lines_update] at hl
    obtain ⟨old, hold, hupdated⟩ := List.mem_filterMap.mp hl
    obtain ⟨body, hbody, rfl⟩ := Option.map_eq_some_iff.mp hupdated
    have hline := ((lined_lines text).fits_of_mem hold).noLineFeed
    refine (updateLine_updated_eq_self_iff hline hbody).mpr fun s hs hstands => ?_
    exact habsent s hs (hstands.trans hpart)

/-- A signature that stands in a line twice takes two updates. -/
theorem repeated_signature_settles :
    let line := "\t_def getstartup(cls, node, services), def getstartup(cls, node, services)".toList
    let out := "\tdef get_startup(cls, node), def getstartup(cls, node, services)".toList
    let text := "  _dirs = ()\r\naddservice(X)\n".toList
    (updateLine line = some out ∧ ¬ IsAttribute out ∧ updateLine out ≠ some out) ∧
      update text = "  directories = ()\r\n".toList ∧ update (update text) = update text := by
  intro line out text
  obtain ⟨hlines, htexts⟩ := update_settles
  have hupdated : updateLine line = some out := by decide +kernel
  have htext : update text = "  directories = ()\r\n".toList := by decide +kernel
  obtain ⟨hattribute, -, -, -, hfixed, -⟩ := hlines line out (by decide +kernel) hupdated
  refine ⟨⟨hupdated, hattribute, fun hsame => ?_⟩, htext, htexts text ?_⟩
  · have hleft : ("def getstartup(cls, node, services)".toList,
        "def get_startup(cls, node)".toList) ∈ signatures := .tail _ (.tail _ (.head _))
    refine hfixed.mp hsame _ hleft ⟨"\tdef get_startup(cls, node), ".toList, [], ?_⟩
    decide +kernel
  · rw [htext]
    simp only [← occurs_iff_isInfix]
    decide +kernel

end EmuControl.ServiceUpdate
