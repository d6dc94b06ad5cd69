import EmuControl.Proofs.DecimalInteger
import EmuControl.Toml.Reader
import EmuControl.Toml.Writer
import Mathlib.Data.List.TakeDrop

/-!
# Strings in written TOML

A string is written in one of four forms. Whichever form a text gets, it is read as that text and up
to the end of its quotes, before everything that can follow a value in a file.

Between three quotes, single quotes of the text may stand as they are, as long as fewer than three
of them meet. `MultilineBody` says what may stand there for which text; it covers the form with
escapes and the one without.
-/
namespace EmuControl.Toml

/-- What may follow a value: the end of its line, or what goes on or ends a list. -/
def Stops (rest : List Char) : Prop :=
  ∀ c ∈ rest.head?, c = '\n' ∨ c = ',' ∨ c = ']'

theorem Stops.ne_cons {rest : List Char} (h : Stops rest) {q : Char} (hq : q = '"' ∨ q = '\'')
    (more : List Char) : rest ≠ q :: more := by
  rintro rfl
  rcases h q rfl with rfl | rfl | rfl <;> rcases hq with hq | hq <;> exact absurd hq (by decide)

section Escapes

theorem readHex?_hexPair_toUpper : ∀ n < 128,
    Text.readHex? ['0', '0', (Nat.digitChar (n / 16)).toUpper, (Nat.digitChar (n % 16)).toUpper] =
      some n := by
  decide

theorem toNat_lt_of_isControl {c : Char} (h : isControl c = true) : c.toNat < 128 := by
  simp only [isControl, Bool.or_eq_true, Bool.and_eq_true, decide_eq_true_eq] at h
  omega

theorem isForbidden_of_not_isControl {c : Char} (h : isControl c = false) (hnewline : c ≠ '\n') :
    isForbidden c = false := by
  simp only [isControl, isForbidden, Bool.or_eq_false_iff, Bool.and_eq_false_iff] at h ⊢
  simp_all

/-- The characters behind a backslash, which do not end the line, stand for a character. -/
structure IsEscape (e : Char) (more : List Char) (c : Char) : Prop where
  not_blank : isIndent e = false ∧ e ≠ '\n' ∧ e ≠ '\r'
  read : ∀ rest, escape? e (more ++ rest) = some (c, rest)

theorem IsEscape.joinedLine?_eq_none {e c : Char} {more : List Char} (h : IsEscape e more c)
    (rest : List Char) : joinedLine? (e :: (more ++ rest)) = none := by
  obtain ⟨hindent, hnewline, hreturn⟩ := h.not_blank
  rw [joinedLine?, List.dropWhile_cons_of_neg (by simp [hindent])]
  split
  case h_1 heq => exact absurd (List.cons.inj heq).1 hnewline
  case h_2 heq => exact absurd (List.cons.inj heq).1 hreturn
  case h_3 => rfl

theorem codePoint?_append {digits : List Char} {n : Nat} (h : Text.readHex? digits = some n)
    (hvalid : n.isValidChar) (rest : List Char) :
    codePoint? digits.length (digits ++ rest) = some (Char.ofNatAux n hvalid, rest) := by
  rw [codePoint?, List.take_left, List.drop_left, if_pos rfl, h, Option.bind_eq_bind,
    Option.bind_some, dif_pos hvalid]

/-- A control character is given by its code point in upper-case hexadecimal digits. -/
theorem isEscape_codePoint {c : Char} (h : isControl c = true) :
    IsEscape 'u' ['0', '0', (Nat.digitChar (c.toNat / 16)).toUpper,
      (Nat.digitChar (c.toNat % 16)).toUpper] c := by
  have hread := readHex?_hexPair_toUpper c.toNat (toNat_lt_of_isControl h)
  exact ⟨by decide, fun rest => codePoint?_append hread c.valid rest⟩

theorem isEscape_short {e c : Char} (hblank : isIndent e = false ∧ e ≠ '\n' ∧ e ≠ '\r')
    (h : ∀ rest, escape? e rest = some (c, rest)) : IsEscape e [] c :=
  ⟨hblank, h⟩

theorem isEscape_quote : IsEscape '"' [] '"' :=
  isEscape_short (by decide) fun _ => rfl

/-- A character other than a quote is written as an escape for it or as itself. -/
theorem escapeChar_cases (multiline : Bool) (c : Char) :
    (∃ e more, (escapeChar multiline c).toList = '\\' :: e :: more ∧ IsEscape e more c) ∨
    ((escapeChar multiline c).toList = [c] ∧ c ≠ '\\' ∧ c ≠ '\r' ∧
      (isForbidden c = false ∨ multiline = true ∧ c = '\n')) := by
  rw [escapeChar]
  split
  case isTrue h =>
    subst h
    exact .inl ⟨'b', [], rfl, isEscape_short (by decide) fun _ => rfl⟩
  case isFalse =>
  split
  case isTrue h =>
    subst h
    exact .inl ⟨'t', [], rfl, isEscape_short (by decide) fun _ => rfl⟩
  case isFalse =>
  split
  case isTrue h =>
    subst h
    cases multiline with
    | true => exact .inr ⟨rfl, by decide, by decide, .inr ⟨rfl, rfl⟩⟩
    | false => exact .inl ⟨'n', [], rfl, isEscape_short (by decide) fun _ => rfl⟩
  case isFalse hnewline =>
  split
  case isTrue h =>
    subst h
    exact .inl ⟨'f', [], rfl, isEscape_short (by decide) fun _ => rfl⟩
  case isFalse =>
  split
  case isTrue h =>
    subst h
    exact .inl ⟨'r', [], rfl, isEscape_short (by decide) fun _ => rfl⟩
  case isFalse hreturn =>
  split
  case isTrue h =>
    subst h
    exact .inl ⟨'\\', [], rfl, isEscape_short (by decide) fun _ => rfl⟩
  case isFalse hbackslash =>
  split
  case isTrue h =>
    refine .inl ⟨'u', _, ?_, isEscape_codePoint h⟩
    simp only [String.toList_append, String.toUpper, String.toList_map, Text.hexPair,
      String.toList_ofList]
    rfl
  case isFalse h =>
    have hplain := isForbidden_of_not_isControl (Bool.eq_false_iff.mpr h) hnewline
    rw [Char.toString_eq_singleton, String.toList_singleton]
    exact .inr ⟨rfl, hbackslash, hreturn, .inl hplain⟩

end Escapes

section SingleLine

/-- Between double quotes on one line, every quote of the text is escaped. -/
theorem basicString_escapeChars (cs rest before : List Char) {fuel : Nat}
    (hfuel : cs.length < fuel) :
    basicString fuel before ((escapeChars false 0 0 cs).toList ++ '"' :: rest) =
      some (String.ofList (before.reverse ++ cs), rest) := by
  induction cs generalizing before fuel with
  | nil =>
    obtain ⟨fuel, rfl⟩ := Nat.exists_eq_succ_of_ne_zero (Nat.ne_of_gt hfuel)
    rw [List.append_nil]
    rfl
  | cons c cs ih =>
    obtain ⟨fuel, rfl⟩ := Nat.exists_eq_succ_of_ne_zero (Nat.ne_of_gt (Nat.zero_lt_of_lt hfuel))
    have hrest := ih (c :: before) (Nat.lt_of_succ_lt_succ hfuel)
    rw [List.reverse_cons, List.append_assoc, List.singleton_append] at hrest
    rw [escapeChars]
    split
    case isTrue hquote =>
      subst hquote
      simp only [Nat.lt_irrefl, if_false, String.toList_append, List.append_assoc]
      exact hrest
    case isFalse hquote =>
      simp only [String.toList_append, List.append_assoc]
      rcases escapeChar_cases false c with
        ⟨e, more, htext, hescape⟩ | ⟨htext, hbackslash, -, hplain⟩
      · rw [htext, List.cons_append, List.cons_append, basicString, hescape.read]
        exact hrest
      · have hallowed : isForbidden c = false :=
          hplain.resolve_right (fun h => Bool.noConfusion h.1)
        rw [htext, List.singleton_append, basicString, hallowed]
        · exact hrest
        · exact hquote
        · exact fun heq _ => hbackslash heq
        · exact fun _ _ heq _ => hbackslash heq

theorem literalString_append {cs : List Char} (hquote : '\'' ∉ cs)
    (hallowed : ∀ c ∈ cs, isForbidden c = false) (rest : List Char) :
    literalString (cs ++ '\'' :: rest) = some (String.ofList cs, rest) := by
  have hinside : ∀ c ∈ cs, (c != '\'') = true := by
    intro c hc
    exact bne_iff_ne.mpr fun heq => hquote (heq ▸ hc)
  have hbody : (cs ++ '\'' :: rest).span (· != '\'') = (cs, '\'' :: rest) :=
    Text.span_append hinside (by simp)
  have hplain : cs.any isForbidden = false := by
    rw [List.any_eq_false]
    exact fun c hc => by simp [hallowed c hc]
  rw [literalString, hbody]
  simp only [hplain, Bool.false_eq_true, if_false]

end SingleLine

section Multiline

/-- Between three quotes, the text stands for the characters. `run` quotes stand right before it. -/
inductive MultilineBody (q : Char) (escapes : Bool) : (run : Nat) → (text cs : List Char) → Prop
  | nil {run : Nat} : MultilineBody q escapes run [] []
  | quote {run : Nat} {text cs : List Char} : run < 2 → MultilineBody q escapes (run + 1) text cs →
      MultilineBody q escapes run (q :: text) (q :: cs)
  | escape {run : Nat} {e c : Char} {more text cs : List Char} : escapes = true →
      IsEscape e more c → MultilineBody q escapes 0 text cs →
      MultilineBody q escapes run ('\\' :: e :: (more ++ text)) (c :: cs)
  | plain {run : Nat} {c : Char} {text cs : List Char} : c ≠ q → (escapes = true → c ≠ '\\') →
      c ≠ '\r' → isForbidden c = false ∨ c = '\n' → MultilineBody q escapes 0 text cs →
      MultilineBody q escapes run (c :: text) (c :: cs)

variable {q : Char} {escapes : Bool} {run : Nat} {text cs rest : List Char}

theorem MultilineBody.length_le (h : MultilineBody q escapes run text cs) :
    cs.length ≤ text.length := by
  induction h with
  | nil => exact Nat.le_refl _
  | quote _ _ ih => exact Nat.succ_le_succ ih
  | escape _ _ _ ih =>
    simp only [List.length_cons, List.length_append]
    omega
  | plain _ _ _ _ _ ih => exact Nat.succ_le_succ ih

/-- Quotes meet before the end of the text fewer than three times, or up to its end. -/
theorem MultilineBody.leading (h : MultilineBody q escapes run text cs) (hq : q ≠ '\\')
    (hrun : run ≤ 2) (tail : List Char) :
    (∃ k, k ≤ 2 ∧ text = List.replicate k q ∧ cs = List.replicate k q) ∨
      ((text ++ tail).takeWhile (· == q)).length ≤ 2 := by
  have hcount : (∃ k, k + run ≤ 2 ∧ text = List.replicate k q ∧ cs = List.replicate k q) ∨
      ((text ++ tail).takeWhile (· == q)).length + run ≤ 2 := by
    induction h with
    | nil => exact .inl ⟨0, by omega, rfl, rfl⟩
    | quote hlt _ ih =>
      rcases ih (by omega) with ⟨k, hk, rfl, rfl⟩ | hlength
      · exact .inl ⟨k + 1, by omega, rfl, rfl⟩
      · right
        rw [List.cons_append, List.takeWhile_cons_of_pos (by simp), List.length_cons]
        omega
    | escape =>
      right
      rw [List.cons_append, List.takeWhile_cons_of_neg (by simpa using hq.symm)]
      simpa using hrun
    | plain hc =>
      right
      rw [List.cons_append, List.takeWhile_cons_of_neg (by simpa using hc)]
      simpa using hrun
  rcases hcount with ⟨k, hk, htext, hcs⟩ | hlength
  · exact .inl ⟨k, by omega, htext, hcs⟩
  · exact .inr (by omega)

theorem closing?_eq_none {cs : List Char} (h : (cs.takeWhile (· == q)).length ≤ 2) :
    closing? q cs = none := by
  rw [closing?, if_neg]
  simp only [Bool.and_eq_true, decide_eq_true_eq]
  omega

/-- Up to two quotes before the closing ones belong to the text. -/
theorem closing?_replicate {k : Nat} (hk : k ≤ 2) (hrest : ∀ more, rest ≠ q :: more) :
    closing? q (List.replicate (k + 3) q ++ rest) = some (k, rest) := by
  have hstop : rest.takeWhile (· == q) = [] := by
    cases rest with
    | nil => rfl
    | cons c more =>
      refine List.takeWhile_cons_of_neg fun heq => hrest more ?_
      rw [eq_of_beq heq]
  have hrun : (List.replicate (k + 3) q ++ rest).takeWhile (· == q) = List.replicate (k + 3) q := by
    rw [List.takeWhile_append_of_pos, hstop, List.append_nil]
    intro c hc
    rw [List.eq_of_mem_replicate hc]
    exact beq_self_eq_true q
  have hdrop : (List.replicate (k + 3) q ++ rest).drop (k + 3) = rest := by
    rw [List.drop_append_of_le_length (by simp)]
    simp
  rw [closing?, hrun, List.length_replicate, hdrop, if_pos (by simp; omega)]
  rfl

theorem multilineString_closing {k fuel : Nat} (hk : k ≤ 2) (hrest : ∀ more, rest ≠ q :: more)
    (before : List Char) :
    multilineString q escapes (fuel + 1) before (List.replicate (k + 3) q ++ rest) =
      some (String.ofList (before.reverse ++ List.replicate k q), rest) := by
  have hclosing := closing?_replicate hk hrest
  rw [List.replicate_succ, List.cons_append] at hclosing ⊢
  rw [multilineString.eq_def]
  simp only [hclosing, if_true]

theorem multilineString_quote (h : ((q :: rest).takeWhile (· == q)).length ≤ 2)
    (fuel : Nat) (before : List Char) :
    multilineString q escapes (fuel + 1) before (q :: rest) =
      multilineString q escapes fuel (q :: before) rest := by
  have hclosing : closing? q (q :: rest) = none := closing?_eq_none h
  have hfew : ¬ 6 ≤ ((q :: rest).takeWhile (· == q)).length := by omega
  rw [multilineString.eq_def]
  simp only [hclosing, if_true, if_neg hfew]

theorem multilineString_escape {e c : Char} {more : List Char} (hq : q ≠ '\\')
    (h : IsEscape e more c) (fuel : Nat) (before rest : List Char) :
    multilineString q true (fuel + 1) before ('\\' :: e :: (more ++ rest)) =
      multilineString q true fuel (c :: before) rest := by
  rw [multilineString.eq_def]
  simp only [if_neg hq.symm, decide_true, Bool.and_self, if_true, h.joinedLine?_eq_none, h.read]

theorem multilineString_plain {c : Char} (hc : c ≠ q) (hbackslash : escapes = true → c ≠ '\\')
    (hreturn : c ≠ '\r') (hallowed : isForbidden c = false ∨ c = '\n') (fuel : Nat)
    (before rest : List Char) :
    multilineString q escapes (fuel + 1) before (c :: rest) =
      multilineString q escapes fuel (c :: before) rest := by
  have hescape : ¬ (escapes && decide (c = '\\')) = true := by
    rw [Bool.and_eq_true, decide_eq_true_eq]
    exact fun h => hbackslash h.1 h.2
  rw [multilineString.eq_def]
  simp only [if_neg hc, if_neg hescape, if_neg hreturn]
  rcases hallowed with hallowed | hnewline
  · simp only [hallowed, Bool.false_eq_true, if_false, ite_self]
  · rw [if_pos hnewline]

/-- The text between three quotes is read to the closing quotes. -/
theorem MultilineBody.read (h : MultilineBody q escapes run text cs) (hq : q ≠ '\\')
    (hrun : run ≤ 2) (hrest : ∀ more, rest ≠ q :: more) (before : List Char) {fuel : Nat}
    (hfuel : cs.length < fuel) :
    multilineString q escapes fuel before (text ++ (List.replicate 3 q ++ rest)) =
      some (String.ofList (before.reverse ++ cs), rest) := by
  induction h generalizing before fuel with
  | nil =>
    obtain ⟨fuel, rfl⟩ := Nat.exists_eq_add_of_lt hfuel
    exact multilineString_closing (Nat.zero_le 2) hrest before
  | @quote run text cs hlt h ih =>
    obtain ⟨fuel, rfl⟩ := Nat.exists_eq_add_of_lt (Nat.zero_lt_of_lt hfuel)
    rw [Nat.zero_add] at hfuel ⊢
    -- The quotes here are followed by something else, or they run into the closing ones.
    rcases (MultilineBody.quote hlt h).leading hq hrun (List.replicate 3 q ++ rest) with
      ⟨k, hk, htext, hcs⟩ | hfew
    · rw [htext, hcs, ← List.append_assoc, List.replicate_append_replicate]
      exact multilineString_closing hk hrest before
    · have htail := ih (by omega) (q :: before) (Nat.lt_of_succ_lt_succ hfuel)
      rw [List.reverse_cons, List.append_assoc, List.singleton_append] at htail
      rw [List.cons_append] at hfew ⊢
      rw [multilineString_quote hfew, htail]
  | @escape run e c more text cs hescapes hescape _ ih =>
    obtain ⟨fuel, rfl⟩ := Nat.exists_eq_add_of_lt (Nat.zero_lt_of_lt hfuel)
    rw [Nat.zero_add] at hfuel ⊢
    have htail := ih (Nat.zero_le 2) (c :: before) (Nat.lt_of_succ_lt_succ hfuel)
    rw [List.reverse_cons, List.append_assoc, List.singleton_append] at htail
    subst hescapes
    rw [List.cons_append, List.cons_append, List.append_assoc, multilineString_escape hq hescape,
      htail]
  | @plain run c text cs hc hbackslash hreturn hallowed _ ih =>
    obtain ⟨fuel, rfl⟩ := Nat.exists_eq_add_of_lt (Nat.zero_lt_of_lt hfuel)
    rw [Nat.zero_add] at hfuel ⊢
    have htail := ih (Nat.zero_le 2) (c :: before) (Nat.lt_of_succ_lt_succ hfuel)
    rw [List.reverse_cons, List.append_assoc, List.singleton_append] at htail
    rw [List.cons_append, multilineString_plain hc hbackslash hreturn hallowed, htail]

/-- Of a text with escapes, the third quote in a row is always escaped. -/
theorem escapeChars_body (cs : List Char) (run : Nat) :
    MultilineBody '"' true run (escapeChars true 2 run cs).toList cs := by
  induction cs generalizing run with
  | nil => exact .nil
  | cons c cs ih =>
    rw [escapeChars]
    split
    case isTrue hquote =>
      subst hquote
      split
      case isTrue hlt =>
        rw [String.toList_append]
        exact .quote hlt (ih (run + 1))
      case isFalse =>
        rw [String.toList_append]
        exact .escape rfl isEscape_quote (ih 0)
    case isFalse hquote =>
      rw [String.toList_append]
      rcases escapeChar_cases true c with
        ⟨e, more, htext, hescape⟩ | ⟨htext, hbackslash, hreturn, hallowed⟩
      · rw [htext]
        exact .escape rfl hescape (ih 0)
      · rw [htext]
        exact .plain hquote (fun _ => hbackslash) hreturn (hallowed.imp_right And.right) (ih 0)

theorem hasTriple_of_append {q : Char} (before : List Char) {cs : List Char}
    (h : hasTriple q (before ++ cs) = false) : hasTriple q cs = false := by
  induction before with
  | nil => exact h
  | cons c before ih =>
    refine ih ?_
    rw [List.cons_append] at h
    cases hcs : before ++ cs with
    | nil => rfl
    | cons a more =>
      cases more with
      | nil => rfl
      | cons b more =>
        rw [hcs, hasTriple, Bool.or_eq_false_iff] at h
        exact h.2

/-- A text without three quotes in a row may stand between three quotes as it is. -/
theorem literal_body {q : Char} {cs : List Char} (hcontrol : ∀ c ∈ cs, isControl c = false)
    {run : Nat} (htriple : hasTriple q (List.replicate run q ++ cs) = false) :
    MultilineBody q false run cs cs := by
  induction cs generalizing run with
  | nil => exact .nil
  | cons c cs ih =>
    obtain ⟨hc, hcontrol⟩ := List.forall_mem_cons.mp hcontrol
    by_cases hquote : c = q
    · subst hquote
      have hlt : run < 2 := by
        by_contra hge
        obtain ⟨k, rfl⟩ := Nat.exists_eq_add_of_le' (Nat.le_of_not_lt hge)
        have hlast : List.replicate (k + 2) c ++ c :: cs =
            List.replicate k c ++ c :: c :: c :: cs := by
          rw [← List.replicate_append_replicate, List.append_assoc]
          rfl
        rw [hlast] at htriple
        have hfirst := hasTriple_of_append _ htriple
        simp [hasTriple] at hfirst
      refine .quote hlt (ih hcontrol ?_)
      rw [List.replicate_succ', List.append_assoc]
      exact htriple
    · have hallowed : isForbidden c = false ∨ c = '\n' := by
        by_cases hnewline : c = '\n'
        · exact .inr hnewline
        · exact .inl (isForbidden_of_not_isControl hc hnewline)
      have hreturn : c ≠ '\r' := by
        rintro rfl
        exact absurd hc (by decide)
      have hrest : hasTriple q cs = false :=
        hasTriple_of_append (List.replicate run q ++ [c]) (by simpa using htriple)
      exact .plain hquote nofun hreturn hallowed (ih hcontrol hrest)

end Multiline

section Forms

theorem stringForm_literal {cs : List Char} (h : stringForm cs = .literal) :
    (∀ c ∈ cs, isControl c = false) ∧ '\'' ∉ cs ∧ '\n' ∉ cs := by
  rw [stringForm] at h
  split_ifs at h with _ hliteral
  simp only [Bool.and_eq_true, Bool.not_eq_true', List.any_eq_false, Bool.not_eq_true,
    Bool.or_eq_false_iff, decide_eq_false_iff_not] at hliteral
  obtain ⟨hcontrol, hmarks⟩ := hliteral
  exact ⟨hcontrol, fun hmem => (hmarks _ hmem).1 rfl, fun hmem => (hmarks _ hmem).2 rfl⟩

theorem stringForm_multilineLiteral {cs : List Char} (h : stringForm cs = .multilineLiteral) :
    (∀ c ∈ cs, isControl c = false) ∧ hasTriple '\'' cs = false := by
  rw [stringForm] at h
  split_ifs at h with _ _ _ hliteral
  simp only [Bool.and_eq_true, Bool.not_eq_true', List.any_eq_false, Bool.not_eq_true] at hliteral
  exact hliteral

/-- A body on the line of its opening quotes does not begin with a line end. -/
theorem MultilineBody.skipFirstLineEnd_eq {q : Char} {escapes : Bool} {text cs : List Char}
    (h : MultilineBody q escapes 0 text cs) (hq : q = '"' ∨ q = '\'') (hnewline : '\n' ∉ cs)
    (rest : List Char) :
    skipFirstLineEnd (text ++ (List.replicate 3 q ++ rest)) =
      text ++ (List.replicate 3 q ++ rest) := by
  have hskip : ∀ c more, c ≠ '\n' → c ≠ '\r' → skipFirstLineEnd (c :: more) = c :: more := by
    intro c more hn hr
    rw [skipFirstLineEnd.eq_def]
    split
    case h_1 heq => exact absurd (List.cons.inj heq).1 hn
    case h_2 heq => exact absurd (List.cons.inj heq).1 hr
    case h_3 => rfl
  have hmark : q ≠ '\n' ∧ q ≠ '\r' := by
    rcases hq with rfl | rfl <;> decide
  cases h with
  | nil => exact hskip q _ hmark.1 hmark.2
  | quote => exact hskip q _ hmark.1 hmark.2
  | escape => exact hskip _ _ (by decide) (by decide)
  | plain _ _ hreturn =>
    exact hskip _ _ (fun heq => hnewline (heq ▸ List.mem_cons_self)) hreturn

/-- Three quotes, the line end that a text of several lines begins with, and the text. -/
theorem MultilineBody.opened {q : Char} {escapes : Bool} {text cs rest : List Char}
    (h : MultilineBody q escapes 0 text cs) (hq : q = '"' ∨ q = '\'')
    (hrest : ∀ more, rest ≠ q :: more) :
    let opened := (opening cs).toList ++ (text ++ (List.replicate 3 q ++ rest))
    multilineString q escapes (opened.length + 1) [] (skipFirstLineEnd opened) =
      some (String.ofList cs, rest) := by
  intro opened
  have hlength := h.length_le
  have hfuel : cs.length < opened.length + 1 := by
    simp only [opened, List.length_append]
    omega
  have hbackslash : q ≠ '\\' := by
    rcases hq with rfl | rfl <;> decide
  have hread := h.read hbackslash (Nat.zero_le 2) hrest [] hfuel
  rw [List.reverse_nil, List.nil_append] at hread
  have hskip : skipFirstLineEnd opened = text ++ (List.replicate 3 q ++ rest) := by
    change skipFirstLineEnd ((opening cs).toList ++ _) = _
    rw [opening]
    split
    case isTrue => rfl
    case isFalse hnewline =>
      exact h.skipFirstLineEnd_eq hq (by simpa using hnewline) rest
  rw [hskip, hread]

theorem escapeChars_head (cs : List Char) (more : List Char) :
    (escapeChars false 0 0 cs).toList ≠ '"' :: more := by
  cases cs with
  | nil => exact nofun
  | cons c cs =>
    rw [escapeChars]
    split
    case isTrue =>
      rw [if_neg (Nat.lt_irrefl 0), String.toList_append]
      exact fun heq => absurd (List.cons.inj heq).1 (by decide)
    case isFalse hquote =>
      rw [String.toList_append]
      rcases escapeChar_cases false c with ⟨e, rest, htext, -⟩ | ⟨htext, -⟩
      · rw [htext]
        exact fun heq => absurd (List.cons.inj heq).1 (by decide)
      · rw [htext]
        exact fun heq => hquote (List.cons.inj heq).1

theorem length_le_escapeChars (cs : List Char) :
    cs.length ≤ (escapeChars false 0 0 cs).toList.length := by
  induction cs with
  | nil => exact Nat.le_refl _
  | cons c cs ih =>
    rw [escapeChars]
    split
    case isTrue =>
      simp only [Nat.lt_irrefl, if_false, String.toList_append, List.length_append]
      change cs.length + 1 ≤ 2 + _
      omega
    case isFalse =>
      rw [String.toList_append, List.length_append]
      rcases escapeChar_cases false c with ⟨e, rest, htext, -⟩ | ⟨htext, -⟩
      all_goals
        rw [htext]
        simp only [List.length_cons]
        omega

theorem string?_basic (cs : List Char) {rest : List Char} (hrest : Stops rest) :
    string? ('"' :: ((escapeChars false 0 0 cs).toList ++ '"' :: rest)) =
      some (String.ofList cs, rest) := by
  have hlength := length_le_escapeChars cs
  have hread := basicString_escapeChars cs rest []
    (show cs.length < ((escapeChars false 0 0 cs).toList ++ '"' :: rest).length + 1 by
      rw [List.length_append]
      omega)
  -- Two quotes at once are the empty string, not the beginning of three.
  have hopen : ∀ more, (escapeChars false 0 0 cs).toList ++ '"' :: rest ≠ '"' :: '"' :: more := by
    intro more heq
    cases htext : (escapeChars false 0 0 cs).toList with
    | nil =>
      rw [htext] at heq
      exact hrest.ne_cons (.inl rfl) more (List.cons.inj heq).2
    | cons c text =>
      rw [htext] at heq
      obtain rfl : c = '"' := (List.cons.inj heq).1
      exact escapeChars_head cs text htext
  rw [string?]
  · exact hread
  · exact hopen

theorem string?_literal {cs rest : List Char} (hquote : '\'' ∉ cs)
    (hallowed : ∀ c ∈ cs, isForbidden c = false) (hrest : Stops rest) :
    string? ('\'' :: (cs ++ '\'' :: rest)) = some (String.ofList cs, rest) := by
  have hopen : ∀ more, cs ++ '\'' :: rest ≠ '\'' :: '\'' :: more := by
    intro more heq
    cases cs with
    | nil => exact hrest.ne_cons (.inr rfl) more (List.cons.inj heq).2
    | cons c cs => exact hquote ((List.cons.inj heq).1 ▸ List.mem_cons_self)
  rw [string?]
  · exact literalString_append hquote hallowed rest
  · exact hopen

/-- A text is read from the form that it is written in. -/
theorem string?_stringText (s : String) {rest : List Char} (hrest : Stops rest) :
    string? ((stringText s).toList ++ rest) = some (s, rest) := by
  rw [stringText]
  cases hform : stringForm s.toList with
  | basic =>
    simp only [String.toList_append, List.append_assoc]
    have hread := string?_basic s.toList hrest
    rw [String.ofList_toList] at hread
    exact hread
  | literal =>
    obtain ⟨hcontrol, hquote, hnewline⟩ := stringForm_literal hform
    have hallowed : ∀ c ∈ s.toList, isForbidden c = false := fun c hc =>
      isForbidden_of_not_isControl (hcontrol c hc) fun heq => hnewline (heq ▸ hc)
    have hread := string?_literal hquote hallowed hrest
    rw [String.ofList_toList] at hread
    simp only [String.toList_append, List.append_assoc]
    exact hread
  | multilineBasic =>
    have hread := (escapeChars_body s.toList 0).opened (.inl rfl) (hrest.ne_cons (.inl rfl))
    rw [String.ofList_toList] at hread
    simp only [String.toList_append, List.append_assoc]
    exact hread
  | multilineLiteral =>
    obtain ⟨hcontrol, htriple⟩ := stringForm_multilineLiteral hform
    have hbody : MultilineBody '\'' false 0 s.toList s.toList := literal_body hcontrol htriple
    have hread := hbody.opened (.inr rfl) (hrest.ne_cons (.inr rfl))
    rw [String.ofList_toList] at hread
    simp only [String.toList_append, List.append_assoc]
    exact hread

end Forms

end EmuControl.Toml
