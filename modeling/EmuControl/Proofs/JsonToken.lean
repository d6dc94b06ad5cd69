import EmuControl.Json.Reader
import EmuControl.Proofs.JsonNumeral

/-!
# Tokens of written JSON

Every string and every number that is written is one token when it is read, whatever stands behind
it, as long as a number is followed by a comma, by a line end or by nothing. A string token is the
string that was written, and the token of an integer has its value. The token of a floating-point
number stands for such a number, and for which one is a matter of rounding.

`Lexes` is the tokenizer without its fuel.
-/
namespace EmuControl.Json

open EmuControl.Number

section Strings

theorem readHex?_hexPair : ∀ n < 32,
    Text.readHex? ['0', '0', Nat.digitChar (n / 16), Nat.digitChar (n % 16)] = some n := by
  decide

theorem toList_unicodeEscape (n : Nat) : ("\\u00" ++ Text.hexPair n).toList =
    ['\\', 'u', '0', '0', Nat.digitChar (n / 16), Nat.digitChar (n % 16)] := by
  simp only [String.toList_append, Text.hexPair, String.toList_ofList]
  rfl

theorem lexStringChar_unicodeEscape {c : Char} (h : c.toNat < 0x20) (rest : List Char) :
    lexStringChar (("\\u00" ++ Text.hexPair c.toNat).toList ++ rest) = some (some c, rest) := by
  have hunit : lexUnit ('0' :: '0' :: Nat.digitChar (c.toNat / 16) ::
      Nat.digitChar (c.toNat % 16) :: rest) = some (c.toNat, rest) := by
    rw [lexUnit, readHex?_hexPair _ h]
    rfl
  have hhigh : isHighSurrogate c.toNat = false := by
    rw [isHighSurrogate, Bool.and_eq_false_iff, decide_eq_false_iff_not]
    omega
  have hlow : isLowSurrogate c.toNat = false := by
    rw [isLowSurrogate, Bool.and_eq_false_iff, decide_eq_false_iff_not]
    omega
  rw [toList_unicodeEscape]
  simp only [List.cons_append, List.nil_append]
  rw [lexStringChar, hunit]
  simp [hhigh, hlow]

theorem lexStringChar_plain {c : Char} (hbackslash : c ≠ '\\') (hcontrol : ¬ c.toNat < 0x20)
    (rest : List Char) : lexStringChar (c :: rest) = some (some c, rest) := by
  rw [lexStringChar.eq_def]
  split
  case h_1 heq => exact absurd (List.cons.inj heq).1 hbackslash
  case h_2 heq => exact absurd (List.cons.inj heq).1 hbackslash
  case h_3 heq =>
    obtain ⟨rfl, rfl⟩ := List.cons.inj heq
    simp [hbackslash, hcontrol]
  case h_4 heq => exact absurd heq (List.cons_ne_nil _ _)

/-- A written character is read as itself, and it does not end the string. -/
theorem escapeChar_read (c : Char) :
    (∃ e more, (escapeChar c).toList = e :: more ∧ e ≠ '"') ∧
      ∀ rest, lexStringChar ((escapeChar c).toList ++ rest) = some (some c, rest) := by
  rw [escapeChar]
  split
  case isTrue h =>
    subst h
    exact ⟨⟨'\\', ['"'], rfl, by decide⟩, fun _ => rfl⟩
  case isFalse hquote =>
  split
  case isTrue h =>
    subst h
    exact ⟨⟨'\\', ['\\'], rfl, by decide⟩, fun _ => rfl⟩
  case isFalse hbackslash =>
  split
  case isTrue h =>
    subst h
    exact ⟨⟨'\\', ['b'], rfl, by decide⟩, fun _ => rfl⟩
  case isFalse =>
  split
  case isTrue h =>
    subst h
    exact ⟨⟨'\\', ['f'], rfl, by decide⟩, fun _ => rfl⟩
  case isFalse =>
  split
  case isTrue h =>
    subst h
    exact ⟨⟨'\\', ['n'], rfl, by decide⟩, fun _ => rfl⟩
  case isFalse =>
  split
  case isTrue h =>
    subst h
    exact ⟨⟨'\\', ['r'], rfl, by decide⟩, fun _ => rfl⟩
  case isFalse =>
  split
  case isTrue h =>
    subst h
    exact ⟨⟨'\\', ['t'], rfl, by decide⟩, fun _ => rfl⟩
  case isFalse =>
  split
  case isTrue h =>
    exact ⟨⟨'\\', _, toList_unicodeEscape c.toNat, by decide⟩, lexStringChar_unicodeEscape h⟩
  case isFalse h =>
    rw [Char.toString_eq_singleton, String.toList_singleton]
    exact ⟨⟨c, [], rfl, hquote⟩, lexStringChar_plain hbackslash h⟩

/-- A string is read to its closing quote. -/
theorem lexString_escaped (cs rest before : List Char) {fuel : Nat} (hfuel : cs.length < fuel) :
    lexString fuel (some before) (cs.flatMap (fun c => (escapeChar c).toList) ++ '"' :: rest) =
      some (some (String.ofList (before.reverse ++ cs)), rest) := by
  induction cs generalizing before fuel with
  | nil =>
    obtain ⟨fuel, rfl⟩ := Nat.exists_eq_succ_of_ne_zero (Nat.ne_of_gt hfuel)
    rw [List.append_nil]
    rfl
  | cons c cs ih =>
    obtain ⟨fuel, rfl⟩ := Nat.exists_eq_succ_of_ne_zero (Nat.ne_of_gt (Nat.zero_lt_of_lt hfuel))
    obtain ⟨⟨e, more, hescape, he⟩, hread⟩ := escapeChar_read c
    have hchar := hread (cs.flatMap (fun c => (escapeChar c).toList) ++ '"' :: rest)
    have hrest := ih (c :: before) (Nat.lt_of_succ_lt_succ hfuel)
    rw [List.flatMap_cons, List.append_assoc]
    rw [hescape, List.cons_append] at hchar ⊢
    rw [lexString, hchar]
    · simp only [Option.bind_some, Option.map_some]
      rw [hrest, List.reverse_cons, List.append_assoc, List.singleton_append]
    · exact fun _ heq => he (List.cons.inj heq).1

theorem length_le_escaped (cs : List Char) :
    cs.length ≤ (cs.flatMap fun c => (escapeChar c).toList).length := by
  induction cs with
  | nil => exact Nat.le_refl _
  | cons c cs ih =>
    obtain ⟨⟨e, more, hescape, -⟩, -⟩ := escapeChar_read c
    rw [List.flatMap_cons, List.length_append, hescape, List.length_cons, List.length_cons]
    omega

end Strings

/-- The text consists of the tokens, with blanks between them. -/
inductive Lexes : List Char → List Token → Prop
  | nil : Lexes [] []
  | space {c : Char} {rest : List Char} {tokens : List Token} :
      isSpace c = true → Lexes rest tokens → Lexes (c :: rest) tokens
  | token {c : Char} {rest behind : List Char} {t : Token} {tokens : List Token} :
      isSpace c = false → lexToken c rest = some (t, behind) → behind.length ≤ rest.length →
      Lexes behind tokens → Lexes (c :: rest) (t :: tokens)

theorem Lexes.lexFrom_eq {cs : List Char} {tokens : List Token} (h : Lexes cs tokens)
    {fuel : Nat} (hfuel : cs.length ≤ fuel) (before : List Token) :
    lexFrom fuel before cs = some (before.reverse ++ tokens) := by
  induction h generalizing fuel before with
  | nil => rw [lexFrom, List.append_nil]
  | space hspace _ ih =>
    obtain ⟨fuel, rfl⟩ := Nat.exists_eq_add_of_le' (Nat.le_trans (Nat.succ_pos _) hfuel)
    rw [lexFrom, if_pos hspace]
    exact ih (Nat.le_of_succ_le_succ hfuel) before
  | @token c rest behind t tokens hspace htoken hshorter _ ih =>
    obtain ⟨fuel, rfl⟩ := Nat.exists_eq_add_of_le' (Nat.le_trans (Nat.succ_pos _) hfuel)
    have hrest : rest.length ≤ fuel := Nat.le_of_succ_le_succ hfuel
    have hlex := ih (Nat.le_trans hshorter hrest) (t :: before)
    rw [List.reverse_cons, List.append_assoc, List.singleton_append] at hlex
    rw [lexFrom, hspace, if_neg Bool.false_ne_true, htoken]
    exact hlex

theorem Lexes.tokens?_eq {s : String} {tokens : List Token} (h : Lexes s.toList tokens) :
    tokens? s = some tokens :=
  h.lexFrom_eq (Nat.le_of_eq String.length_toList) []

/-- Before every text that a number may stand before, the text is read as the tokens. -/
def Lexed (text : List Char) (tokens : List Token) : Prop :=
  ∀ rest more, Stops rest → Lexes rest more → Lexes (text ++ rest) (tokens ++ more)

section Tokens

theorem lexToken_digit {c : Char} (h : c.isDigit = true) (rest : List Char) :
    lexToken c rest = (lexNumber false (c :: rest)).map fun (n, rest) => (.number n, rest) := by
  rw [lexToken.eq_def]
  split
  all_goals first
    | rfl
    | exact absurd h (by decide)

theorem IsNumber.head {cs : List Char} {n : Numeral} (h : IsNumber cs n) :
    ∃ c more, cs = c :: more ∧ c.isDigit = true := by
  cases h with
  | parts negative hwhole =>
    obtain ⟨c, digits, rfl⟩ := List.exists_cons_of_ne_nil hwhole.isDigits.1
    exact ⟨c, _, rfl, hwhole.isDigits.2 c List.mem_cons_self⟩

theorem isSpace_of_isDigit {c : Char} (h : c.isDigit = true) : isSpace c = false := by
  rw [isSpace]
  by_contra hspace
  simp only [Bool.not_eq_false, Bool.or_eq_true, decide_eq_true_eq] at hspace
  rcases hspace with ((rfl | rfl) | rfl) | rfl <;> exact absurd h (by decide)

theorem lexed_number {cs : List Char} {n : Numeral} (h : IsNumber cs n) :
    Lexed ((if n.negative then ['-'] else []) ++ cs) [.number n] := by
  intro rest more hrest hmore
  have hread := lexNumber_append h hrest
  cases hnegative : n.negative with
  | true =>
    rw [hnegative] at hread
    refine .token rfl ?_ ?_ hmore
    · change (lexNumber true (cs ++ rest)).map _ = _
      rw [hread]
      rfl
    · change rest.length ≤ (cs ++ rest).length
      rw [List.length_append]
      omega
  | false =>
    rw [hnegative] at hread
    obtain ⟨c, digits, rfl, hc⟩ := h.head
    refine .token (isSpace_of_isDigit hc) ?_ ?_ hmore
    · rw [lexToken_digit hc]
      change (lexNumber false ((c :: digits) ++ rest)).map _ = _
      rw [hread]
      rfl
    · change rest.length ≤ (digits ++ rest).length
      rw [List.length_append]
      omega

theorem float_lexed {x : Binary64} (hx : x.isFinite = true) :
    ∃ (n : Numeral) (y : Binary64),
      n.value = .float y ∧ Lexed (floatText x).toList [.number n] := by
  obtain ⟨body, htext, n, hnegative, hmoderate, hbody⟩ := floatText_isNumber hx
  obtain ⟨y, hy⟩ := hmoderate.exists_value
  refine ⟨n, y, hy, ?_⟩
  rw [htext, ← hnegative]
  exact lexed_number hbody

theorem isNumber_toDigits (negative : Bool) (n : Nat) :
    IsNumber (Nat.toDigits 10 n) ⟨negative, (Nat.toDigits 10 n).map digitOf, none, none⟩ := by
  have hnumber := IsNumber.parts negative (isWhole_toDigits n) .absent .absent
  rwa [List.append_nil, List.append_nil] at hnumber

/-- An integer of 64 bits, signed or not, comes back as the token of its value. -/
theorem integer_lexed {n : Int} (hlo : -(Nat.pow 2 63 : Int) ≤ n) (hhi : n ≤ maxSignificand) :
    ∃ m : Numeral, m.value = .integer n ∧ Lexed (writeInteger n).toList [.number m] := by
  cases n with
  | ofNat k =>
    have hvalue : digitsValue ((Nat.toDigits 10 k).map digitOf) = k := by
      rw [digitsValue_map, Nat.ofDigitChars_ten_toDigits]
    refine ⟨⟨false, (Nat.toDigits 10 k).map digitOf, none, none⟩, ?_, ?_⟩
    · have hk : k ≤ maxSignificand := Int.ofNat_le.mp hhi
      simp only [Numeral.value, hvalue, Option.isSome_none, Bool.or_self, if_pos hk]
      rfl
    · have hlexed := lexed_number (isNumber_toDigits false k)
      rwa [writeInteger, writeNatural, String.toList_ofList]
  | negSucc k =>
    have hvalue : digitsValue ((Nat.toDigits 10 (k + 1)).map digitOf) = k + 1 := by
      rw [digitsValue_map, Nat.ofDigitChars_ten_toDigits]
    refine ⟨⟨true, (Nat.toDigits 10 (k + 1)).map digitOf, none, none⟩, ?_, ?_⟩
    · have hk : (decide (k + 1 = 0) || decide (Nat.pow 2 63 < k + 1)) = false := by
        rw [Bool.or_eq_false_iff, decide_eq_false_iff_not, decide_eq_false_iff_not]
        omega
      simp only [Numeral.value, hvalue, Option.isSome_none, Bool.or_self, hk]
      rfl
    · have hlexed := lexed_number (isNumber_toDigits true (k + 1))
      simp only [writeInteger, writeNatural, String.toList_append, String.toList_ofList]
      exact hlexed

theorem quoted_toList (s : String) :
    (quoted s).toList = '"' :: (s.toList.flatMap (fun c => (escapeChar c).toList) ++ ['"']) := by
  simp only [quoted, String.toList_append, String.toList_join, List.flatMap_map]
  rfl

/-- A string is one token before any text. -/
theorem Lexes.text {rest : List Char} {more : List Token} (h : Lexes rest more) (s : String) :
    Lexes ((quoted s).toList ++ rest) (.text (some s) :: more) := by
  have hlength := length_le_escaped s.toList
  have hfuel : s.toList.length <
      (s.toList.flatMap (fun c => (escapeChar c).toList) ++ '"' :: rest).length + 1 := by
    rw [List.length_append]
    omega
  have hstring := lexString_escaped s.toList rest [] hfuel
  rw [List.reverse_nil, List.nil_append, String.ofList_toList] at hstring
  rw [quoted_toList, List.cons_append, List.append_assoc, List.singleton_append]
  refine .token (by decide) ?_ ?_ h
  · change (lexString _ _ _).map _ = _
    rw [hstring]
    rfl
  · rw [List.length_append, List.length_cons]
    omega

end Tokens

end EmuControl.Json
