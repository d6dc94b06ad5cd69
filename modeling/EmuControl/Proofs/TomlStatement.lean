import EmuControl.Proofs.DocumentReading
import EmuControl.Proofs.TomlNumber

/-!
# Lines of written TOML

Every line that is written is read as one statement: a header as the table or the item of an array
that it names, and an entry as its key with its value. A value is a plain one or a list of plain
ones, on one line or on a line for each item, and its numbers are those that their texts are read
as.

`Stated` says which statements a text consists of, without the fuel of the reader.
-/
namespace EmuControl.Toml

open EmuControl.Number

/-- No blank, line end, comment or byte order mark begins with this character. -/
def IsSolid (c : Char) : Prop :=
  isIndent c = false ∧ c ≠ '#' ∧ c ≠ '\n' ∧ c ≠ '\r' ∧ c ≠ '\uFEFF'

instance (c : Char) : Decidable (IsSolid c) := inferInstanceAs (Decidable (_ ∧ _))

section Blanks

theorem skipIndent_solid {c : Char} (h : IsSolid c) (rest : List Char) :
    skipIndent (c :: rest) = c :: rest :=
  List.dropWhile_cons_of_neg (by simp [h.1])

theorem skipComment?_of_ne {c : Char} (h : c ≠ '#') (rest : List Char) :
    skipComment? (c :: rest) = some (c :: rest) := by
  rw [skipComment?]
  exact fun _ heq => h (List.cons.inj heq).1

theorem lineEnd?_solid {c : Char} (h : IsSolid c) (rest : List Char) :
    lineEnd? (c :: rest) = none := by
  rw [lineEnd?]
  · exact fun _ heq => h.2.2.1 (List.cons.inj heq).1
  · exact fun _ heq => h.2.2.2.1 (List.cons.inj heq).1

theorem skipLines_solid {c : Char} (h : IsSolid c) (fuel : Nat) (rest : List Char) :
    skipLines (fuel + 1) (c :: rest) = some (c :: rest) := by
  rw [skipLines, skipIndent_solid h, skipComment?_of_ne h.2.1]
  simp only [lineEnd?_solid h]

theorem skipLines_newline (fuel : Nat) (rest : List Char) :
    skipLines (fuel + 1) ('\n' :: rest) = skipLines fuel rest := rfl

end Blanks

section Values

/-- Before everything that may follow a value, the text is read as the document, at any depth. -/
structure ReadsAs (text : List Char) (d : Document) : Prop where
  head : ∃ c more, text = c :: more ∧ IsSolid c ∧ c ≠ ']'
  read : ∀ depth rest, Stops rest → valueWithin depth (text ++ rest) = some (d, rest)

theorem valueWithin_of_ne {c : Char} (hlist : c ≠ '[') (htable : c ≠ '\x7b') (depth : Nat)
    (rest : List Char) : valueWithin depth (c :: rest) = valueWithin 0 (c :: rest) := by
  cases depth with
  | zero => rfl
  | succ depth =>
    conv_lhs => rw [valueWithin.eq_def]
    dsimp only
    split
    case h_1 heq => exact absurd (List.cons.inj heq).1 hlist
    case h_2 heq => exact absurd (List.cons.inj heq).1 htable
    case h_3 => rfl

theorem IsScalarText.readsAs {text : List Char} {d : Document} (h : IsScalarText text d) :
    ReadsAs text d := by
  obtain ⟨c, more, rfl⟩ := List.exists_cons_of_ne_nil h.ne_nil
  have hc := h.chars c List.mem_cons_self
  have hsolid : IsSolid c := by
    refine ⟨?_, ne_of_isScalarChar hc (by decide), ne_of_isScalarChar hc (by decide),
      ne_of_isScalarChar hc (by decide), ne_of_isScalarChar hc (by decide)⟩
    have hspace := ne_of_isScalarChar hc (show isScalarChar ' ' = false by decide)
    have htab := ne_of_isScalarChar hc (show isScalarChar '\t' = false by decide)
    simp [isIndent, hspace, htab]
  refine ⟨⟨c, more, rfl, hsolid, ne_of_isScalarChar hc (by decide)⟩, fun depth rest hrest => ?_⟩
  have hquote : ¬ (decide (c = '"') || decide (c = '\'')) = true := by
    have hdouble := ne_of_isScalarChar hc (show isScalarChar '"' = false by decide)
    have hsingle := ne_of_isScalarChar hc (show isScalarChar '\'' = false by decide)
    simp [hdouble, hsingle]
  rw [List.cons_append, valueWithin_of_ne (ne_of_isScalarChar hc (by decide))
    (ne_of_isScalarChar hc (by decide)), valueWithin]
  simp only [if_neg hquote]
  rw [← List.cons_append, takeScalar_append h.chars hrest]
  simp only [h.read, Option.map_some]

theorem readsAs_text (s : String) : ReadsAs (stringText s).toList (.text s) := by
  have hquote : ∃ c more, (stringText s).toList = c :: more ∧ (c = '"' ∨ c = '\'') := by
    rw [stringText]
    cases stringForm s.toList with
    | basic => exact ⟨'"', _, by simp only [String.toList_append]; rfl, .inl rfl⟩
    | literal => exact ⟨'\'', _, by simp only [String.toList_append]; rfl, .inr rfl⟩
    | multilineBasic => exact ⟨'"', _, by simp only [String.toList_append]; rfl, .inl rfl⟩
    | multilineLiteral => exact ⟨'\'', _, by simp only [String.toList_append]; rfl, .inr rfl⟩
  obtain ⟨c, more, htext, hc⟩ := hquote
  have hsolid : IsSolid c ∧ c ≠ ']' ∧ c ≠ '[' ∧ c ≠ '\x7b' := by
    rcases hc with rfl | rfl <;> decide
  have hquoted : (decide (c = '"') || decide (c = '\'')) = true := by
    rcases hc with rfl | rfl <;> rfl
  refine ⟨⟨c, more, htext, hsolid.1, hsolid.2.1⟩, fun depth rest hrest => ?_⟩
  have hread := string?_stringText s hrest
  rw [htext, List.cons_append] at hread ⊢
  rw [valueWithin_of_ne hsolid.2.2.1 hsolid.2.2.2, valueWithin]
  simp only [if_pos hquoted, hread, Option.map_some]

/-- Plain values whose text says all that is in them, but for floating-point numbers: their texts
are read as `f` says. -/
inductive Scalar (f : Binary64 → Document) : Document → Prop
  | bool (b : Bool) : Scalar f (.bool b)
  | integer {n : Int} : -(Nat.pow 2 127 : Int) ≤ n → n < Nat.pow 2 128 → Scalar f (.integer n)
  | float {x : Binary64} : scalar? (floatText x).toList = some (f x) → Scalar f (.float x)
  | text (s : String) : Scalar f (.text s)

variable {f : Binary64 → Document}

theorem Scalar.readsAs {d : Document} (h : Scalar f d) :
    ReadsAs (inlineText d).toList (d.mapFloats f) := by
  cases h with
  | bool b => exact (isScalarText_bool b).readsAs
  | integer hlo hhi =>
    rw [inlineText]
    exact (isScalarText_integer hlo hhi).readsAs
  | float hread =>
    rw [inlineText]
    exact (isScalarText_float hread).readsAs
  | text s =>
    rw [inlineText]
    exact readsAs_text s

end Values

section Lists

variable {f : Binary64 → Document}

/-- An item of an array is read, whatever blanks and line ends stand before it. -/
theorem arrayItems_item {text behind cs : List Char} {d : Document} (h : ReadsAs text d)
    {mark : Char} (hmark : mark = ',' ∨ mark = ']')
    (hskip : skipLines (cs.length + 1) cs = some (text ++ mark :: behind)) (depth fuel : Nat)
    (before : List Document) :
    arrayItems (valueWithin depth) (fuel + 1) before cs =
      if mark = ',' then arrayItems (valueWithin depth) fuel (d :: before) behind
      else some (.list (d :: before).reverse, behind) := by
  obtain ⟨c, more, rfl, -, hend⟩ := h.head
  have hstops : Stops (mark :: behind) := by
    intro c hc
    obtain rfl : mark = c := Option.some.inj hc
    exact .inr hmark
  have hsolid : IsSolid mark := by
    rcases hmark with rfl | rfl <;> decide
  have hread := h.read depth _ hstops
  rw [arrayItems, hskip, Option.bind_eq_bind, Option.bind_some, List.cons_append]
  rw [List.cons_append] at hread
  split
  case h_1 heq => exact absurd (List.cons.inj heq).1 hend
  case h_2 =>
    simp only [hread, Option.bind_eq_bind, Option.bind_some, skipLines_solid hsolid]
    rcases hmark with rfl | rfl <;> rfl

theorem skipLines_indented {c : Char} (h : IsSolid c) (fuel : Nat) (rest : List Char) :
    skipLines (fuel + 2) ('\n' :: ("    ".toList ++ c :: rest)) = some (c :: rest) := by
  have hindent : skipIndent ("    ".toList ++ c :: rest) = c :: rest := by
    rw [skipIndent, List.dropWhile_append_of_pos (List.all_eq_true.mp rfl)]
    exact skipIndent_solid h rest
  rw [skipLines_newline, skipLines, hindent, skipComment?_of_ne h.2.1]
  simp only [lineEnd?_solid h]

/-- The lines of the items of an array. -/
def itemLines (items : List Document) : List Char :=
  items.flatMap fun d => "    ".toList ++ (inlineText d).toList ++ [',', '\n']

theorem arrayItems_lines {items : List Document} (h : ∀ d ∈ items, Scalar f d) (rest : List Char)
    (depth : Nat) {fuel : Nat} (hfuel : items.length < fuel) (before : List Document) :
    arrayItems (valueWithin depth) fuel before ('\n' :: (itemLines items ++ ']' :: rest)) =
      some (.list (before.reverse ++ items.map (Document.mapFloats f)), rest) := by
  induction items generalizing before fuel with
  | nil =>
    obtain ⟨fuel, rfl⟩ := Nat.exists_eq_add_of_lt hfuel
    rw [List.map_nil, List.append_nil]
    rfl
  | cons d items ih =>
    obtain ⟨fuel, rfl⟩ := Nat.exists_eq_add_of_lt (Nat.zero_lt_of_lt hfuel)
    rw [Nat.zero_add] at hfuel ⊢
    obtain ⟨hd, hitems⟩ := List.forall_mem_cons.mp h
    have htail := ih hitems (Nat.lt_of_succ_lt_succ hfuel) (d.mapFloats f :: before)
    rw [List.reverse_cons, List.append_assoc, List.singleton_append] at htail
    have hread := hd.readsAs
    obtain ⟨c, more, htext, hsolid, -⟩ := hread.head
    have hline : itemLines (d :: items) ++ ']' :: rest = "    ".toList ++
        ((inlineText d).toList ++ ',' :: '\n' :: (itemLines items ++ ']' :: rest)) := by
      simp only [itemLines, List.flatMap_cons, List.append_assoc]
      rfl
    rw [hline, arrayItems_item hread (.inl rfl) ?_ depth fuel before, if_pos rfl, htail,
      List.map_cons]
    rw [htext, List.cons_append]
    exact skipLines_indented hsolid _ _

theorem inlineItems_eq_map (items : List Document) : inlineItems items = items.map inlineText := by
  induction items with
  | nil => rfl
  | cons d items ih => rw [inlineItems, ih, List.map_cons]

theorem valueWithin_bracket (depth : Nat) (rest : List Char) :
    valueWithin (depth + 1) ('[' :: rest) =
      arrayItems (valueWithin depth) (rest.length + 1) [] rest := by
  rw [valueWithin]

/-- What stands between the brackets of a list. -/
def listBody : List Document → List Char
  | [] => []
  | [d] => (inlineText d).toList
  | items => '\n' :: itemLines items

theorem valueText_list (items : List Document) :
    (valueText (.list items)).toList = '[' :: (listBody items ++ [']']) := by
  rcases items with _ | ⟨d₁, _ | ⟨d₂, ds⟩⟩
  · rw [valueText, inlineText]
    · rfl
    · intro d₁ d₂ ds h
      cases h
  · simp only [valueText, inlineText, inlineItems, String.intercalate_singleton,
      String.toList_append, listBody]
    rfl
  · simp only [valueText, inlineItems_eq_map, listBody, itemLines, String.toList_append,
      String.toList_join, List.flatMap_map]
    rfl

theorem length_le_itemLines (items : List Document) : items.length ≤ (itemLines items).length := by
  induction items with
  | nil => exact Nat.le_refl _
  | cons d items ih =>
    simp only [itemLines, List.flatMap_cons, List.length_append, List.length_cons] at ih ⊢
    omega

/-- A list of plain values is read back in order, however many lines it takes. -/
theorem valueWithin_list {items : List Document} (h : ∀ d ∈ items, Scalar f d) (rest : List Char)
    (depth : Nat) :
    valueWithin (depth + 1) ((valueText (.list items)).toList ++ rest) =
      some ((Document.list items).mapFloats f, rest) := by
  rw [Document.mapFloats_list, valueText_list, List.cons_append, List.append_assoc,
    List.singleton_append, valueWithin_bracket]
  rcases items with _ | ⟨d₁, _ | ⟨d₂, ds⟩⟩
  · rfl
  · have hread := (h d₁ List.mem_cons_self).readsAs
    obtain ⟨c, more, htext, hsolid, -⟩ := hread.head
    rw [listBody, arrayItems_item hread (.inr rfl) ?_ depth _ [], if_neg (by decide)]
    · rfl
    · rw [htext, List.cons_append]
      exact skipLines_solid hsolid _ _
  · have hfuel : (d₁ :: d₂ :: ds).length <
        (listBody (d₁ :: d₂ :: ds) ++ ']' :: rest).length + 1 := by
      have hlength := length_le_itemLines (d₁ :: d₂ :: ds)
      simp only [listBody, List.length_cons, List.length_append] at hlength ⊢
      omega
    exact arrayItems_lines h rest depth hfuel []

end Lists

section Keys

/-- A key that is written without quotes. -/
def IsBare (key : String) : Prop :=
  isBareKey key = true

theorem IsBare.chars {key : String} (h : IsBare key) : ∀ c ∈ key.toList, isKeyChar c = true := by
  rw [IsBare, isBareKey, Bool.and_eq_true] at h
  exact List.all_eq_true.mp h.2

theorem IsBare.head {key : String} (h : IsBare key) :
    ∃ c more, key.toList = c :: more ∧ isKeyChar c = true := by
  have hne : key.toList ≠ [] := by
    rw [IsBare, isBareKey, Bool.and_eq_true] at h
    simpa using h.1
  obtain ⟨c, more, hcons⟩ := List.exists_cons_of_ne_nil hne
  exact ⟨c, more, hcons, h.chars c (hcons ▸ List.mem_cons_self)⟩

theorem ne_of_isKeyChar {c q : Char} (h : isKeyChar c = true) (hq : isKeyChar q = false) :
    c ≠ q := by
  rintro rfl
  rw [h] at hq
  exact Bool.noConfusion hq

theorem isSolid_of_isKeyChar {c : Char} (h : isKeyChar c = true) : IsSolid c := by
  refine ⟨?_, ne_of_isKeyChar h (by decide), ne_of_isKeyChar h (by decide),
    ne_of_isKeyChar h (by decide), ne_of_isKeyChar h (by decide)⟩
  have hspace := ne_of_isKeyChar h (show isKeyChar ' ' = false by decide)
  have htab := ne_of_isKeyChar h (show isKeyChar '\t' = false by decide)
  simp [isIndent, hspace, htab]

/-- What may follow a part of a key. -/
def EndsKey (rest : List Char) : Prop :=
  ∀ c ∈ rest.head?, isKeyChar c = false

theorem keyPart?_append {key : String} (h : IsBare key) {rest : List Char} (hrest : EndsKey rest) :
    keyPart? (key.toList ++ rest) = some (key, rest) := by
  have hspan := Text.span_append h.chars hrest
  obtain ⟨c, more, htext, hc⟩ := h.head
  have hname : String.ofList (c :: more) = key := by
    rw [← htext, String.ofList_toList]
  rw [htext, List.cons_append] at hspan ⊢
  rw [keyPart?.eq_def]
  split
  case h_1 heq => exact absurd (List.cons.inj heq).1 (ne_of_isKeyChar hc (by decide))
  case h_2 heq => exact absurd (List.cons.inj heq).1 (ne_of_isKeyChar hc (by decide))
  case h_3 =>
    rw [hspan]
    simp only [hname]

/-- The parts of a key behind the first one, each with its dot. -/
def dotted (keys : List String) : List Char :=
  keys.flatMap fun k => '.' :: k.toList

theorem endsKey_dotted {rest : List Char} (h : EndsKey rest) (keys : List String) :
    EndsKey (dotted keys ++ rest) := by
  cases keys with
  | nil => exact h
  | cons k keys =>
    intro c hc
    obtain rfl : '.' = c := Option.some.inj hc
    rfl

theorem length_le_dotted (keys : List String) : keys.length ≤ (dotted keys).length := by
  induction keys with
  | nil => exact Nat.le_refl _
  | cons k keys ih =>
    simp only [dotted, List.flatMap_cons, List.length_append, List.length_cons] at ih ⊢
    omega

theorem moreKeyParts_dotted {keys : List String} (h : ∀ k ∈ keys, IsBare k) {rest : List Char}
    (hrest : EndsKey rest) (hdot : ∀ more, skipIndent rest ≠ '.' :: more) {fuel : Nat}
    (hfuel : keys.length < fuel) :
    moreKeyParts fuel (dotted keys ++ rest) = some (keys, skipIndent rest) := by
  induction keys generalizing fuel with
  | nil =>
    obtain ⟨fuel, rfl⟩ := Nat.exists_eq_add_of_lt hfuel
    rw [dotted, List.flatMap_nil, List.nil_append, moreKeyParts.eq_def]
    dsimp only
    split
    case h_1 more heq => exact absurd heq (hdot more)
    case h_2 => rfl
  | cons k keys ih =>
    obtain ⟨fuel, rfl⟩ := Nat.exists_eq_add_of_lt (Nat.zero_lt_of_lt hfuel)
    rw [Nat.zero_add] at hfuel ⊢
    obtain ⟨hk, hkeys⟩ := List.forall_mem_cons.mp h
    have htail := ih hkeys (Nat.lt_of_succ_lt_succ hfuel)
    have hpart := keyPart?_append hk (endsKey_dotted hrest keys)
    have hskip : skipIndent (k.toList ++ (dotted keys ++ rest)) =
        k.toList ++ (dotted keys ++ rest) := by
      obtain ⟨c, more, htext, hc⟩ := hk.head
      rw [htext, List.cons_append]
      exact skipIndent_solid (isSolid_of_isKeyChar hc) _
    have htext : dotted (k :: keys) ++ rest = '.' :: (k.toList ++ (dotted keys ++ rest)) := by
      simp only [dotted, List.flatMap_cons, List.append_assoc, List.cons_append]
    have hhead : skipIndent ('.' :: (k.toList ++ (dotted keys ++ rest))) =
        '.' :: (k.toList ++ (dotted keys ++ rest)) := skipIndent_solid (by decide) _
    rw [htext, moreKeyParts, hhead]
    simp only [hskip, hpart, Option.bind_eq_bind, Option.bind_some, htail]

/-- A key of several parts is read as the parts before the last one and the last one. -/
theorem key?_dotted {first last : String} {keys path : List String}
    (hpath : first :: keys = path ++ [last]) (h : ∀ k ∈ first :: keys, IsBare k)
    {rest : List Char} (hrest : EndsKey rest) (hdot : ∀ more, skipIndent rest ≠ '.' :: more) :
    key? (first.toList ++ (dotted keys ++ rest)) = some ((path, last), skipIndent rest) := by
  obtain ⟨hfirst, hkeys⟩ := List.forall_mem_cons.mp h
  have hfuel : keys.length < (dotted keys ++ rest).length + 1 := by
    have hlength := length_le_dotted keys
    rw [List.length_append]
    omega
  have hmore := moreKeyParts_dotted hkeys hrest hdot hfuel
  have hreverse : (first :: keys).reverse = last :: path.reverse := by
    rw [hpath, List.reverse_append]
    rfl
  rw [key?, keyPart?_append hfirst (endsKey_dotted hrest keys)]
  simp only [Option.bind_eq_bind, Option.bind_some, hmore, hreverse, List.reverse_reverse]

theorem header_toList {first : String} {keys : List String}
    (h : ∀ k ∈ first :: keys, IsBare k) :
    (header (first :: keys)).toList = first.toList ++ dotted keys := by
  have hbare : (first :: keys).map keyText = first :: keys :=
    (List.map_congr_left fun k hk => if_pos (h k hk)).trans (List.map_id _)
  rw [header, hbare]
  clear h hbare
  induction keys generalizing first with
  | nil => simp [dotted]
  | cons k keys ih =>
    rw [String.intercalate_cons_cons, String.toList_append, String.toList_append, ih]
    simp only [dotted, List.flatMap_cons, List.append_assoc]
    rfl

/-- A header has a key in it, before its closing bracket. -/
theorem key?_header {path : List String} {last : String} (h : ∀ k ∈ path ++ [last], IsBare k)
    (rest : List Char) :
    key? ((header (path ++ [last])).toList ++ ']' :: rest) = some ((path, last), ']' :: rest) := by
  obtain ⟨first, keys, hpath⟩ := List.exists_cons_of_ne_nil
    (List.append_ne_nil_of_right_ne_nil path (List.cons_ne_nil last []))
  have hbracket : EndsKey (']' :: rest) := by
    intro c hc
    obtain rfl : ']' = c := Option.some.inj hc
    rfl
  have hskip : skipIndent (']' :: rest) = ']' :: rest := skipIndent_solid (by decide) rest
  have hkey := key?_dotted hpath.symm (hpath ▸ h) hbracket (by rw [hskip]; exact nofun)
  rw [hpath, header_toList (hpath ▸ h), List.append_assoc, hkey, hskip]

theorem header_head {path : List String} {last : String} (h : ∀ k ∈ path ++ [last], IsBare k) :
    ∃ c more, (header (path ++ [last])).toList = c :: more ∧ isKeyChar c = true := by
  obtain ⟨first, keys, hpath⟩ := List.exists_cons_of_ne_nil
    (List.append_ne_nil_of_right_ne_nil path (List.cons_ne_nil last []))
  rw [hpath] at h ⊢
  obtain ⟨c, more, htext, hc⟩ := (h first List.mem_cons_self).head
  rw [header_toList h, htext]
  exact ⟨c, _, rfl, hc⟩

end Keys

section Statements

theorem statement?_define {path : List String} {last : String}
    (h : ∀ k ∈ path ++ [last], IsBare k) (rest : List Char) :
    statement? ('[' :: ((header (path ++ [last])).toList ++ ']' :: rest)) =
      some (.define path last, rest) := by
  have hkey := key?_header h rest
  obtain ⟨c, more, htext, hc⟩ := header_head h
  rw [htext, List.cons_append] at hkey ⊢
  rw [statement?, skipIndent_solid (isSolid_of_isKeyChar hc), hkey]
  · rfl
  · exact fun _ heq => absurd (List.cons.inj heq).1 (ne_of_isKeyChar hc (by decide))

theorem statement?_extend {path : List String} {last : String}
    (h : ∀ k ∈ path ++ [last], IsBare k) (rest : List Char) :
    statement? ('[' :: '[' :: ((header (path ++ [last])).toList ++ ']' :: ']' :: rest)) =
      some (.extend path last, rest) := by
  have hkey := key?_header h (']' :: rest)
  obtain ⟨c, more, htext, hc⟩ := header_head h
  rw [htext, List.cons_append] at hkey ⊢
  rw [statement?, skipIndent_solid (isSolid_of_isKeyChar hc), hkey]
  rfl

/-- The value of an entry is read to the end of its line. -/
structure IsEntryText (text : List Char) (d : Document) : Prop where
  head : ∃ c more, text = c :: more ∧ IsSolid c
  read : ∀ rest, valueWithin nestingLimit (text ++ '\n' :: rest) = some (d, '\n' :: rest)

theorem statement?_assign {key : String} (hkey : IsBare key) {text : List Char} {d : Document}
    (h : IsEntryText text d) (rest : List Char) :
    statement? (key.toList ++ (' ' :: '=' :: ' ' :: (text ++ '\n' :: rest))) =
      some (.assign [] key d, '\n' :: rest) := by
  obtain ⟨e, value, hvalue, hsolid⟩ := h.head
  have hread := h.read rest
  have hends : EndsKey (' ' :: '=' :: ' ' :: (text ++ '\n' :: rest)) := by
    intro c hc
    obtain rfl : ' ' = c := Option.some.inj hc
    rfl
  have hskip : skipIndent (' ' :: '=' :: ' ' :: (text ++ '\n' :: rest)) =
      '=' :: ' ' :: (text ++ '\n' :: rest) := rfl
  have hblank : skipIndent (' ' :: (text ++ '\n' :: rest)) = text ++ '\n' :: rest := by
    change skipIndent (text ++ '\n' :: rest) = _
    rw [hvalue, List.cons_append]
    exact skipIndent_solid hsolid _
  have hdot : ∀ more, skipIndent (' ' :: '=' :: ' ' :: (text ++ '\n' :: rest)) ≠ '.' :: more := by
    rw [hskip]
    exact nofun
  have hparts : key? (key.toList ++ (dotted [] ++ (' ' :: '=' :: ' ' :: (text ++ '\n' :: rest)))) =
      some (([], key), '=' :: ' ' :: (text ++ '\n' :: rest)) :=
    key?_dotted rfl (by simpa using hkey) hends hdot
  have hassign : assignment? (valueWithin nestingLimit)
      (key.toList ++ (' ' :: '=' :: ' ' :: (text ++ '\n' :: rest))) =
      some (([], key, d), '\n' :: rest) := by
    have hequals : skipIndent ('=' :: ' ' :: (text ++ '\n' :: rest)) =
        '=' :: ' ' :: (text ++ '\n' :: rest) := skipIndent_solid (by decide) _
    rw [dotted, List.flatMap_nil, List.nil_append] at hparts
    rw [assignment?, hparts]
    simp only [Option.bind_eq_bind, Option.bind_some, hequals, hblank, hread]
  obtain ⟨c, more, htext, hc⟩ := hkey.head
  rw [htext, List.cons_append] at hassign ⊢
  rw [statement?, hassign]
  · rfl
  · exact fun _ heq => absurd (List.cons.inj heq).1 (ne_of_isKeyChar hc (by decide))
  · exact fun _ heq => absurd (List.cons.inj heq).1 (ne_of_isKeyChar hc (by decide))

/-- The text consists of the statements, one on each line, and of empty lines. -/
inductive Stated : List Char → List Statement → Prop
  | nil : Stated [] []
  | blank {rest : List Char} {statements : List Statement} :
      Stated rest statements → Stated ('\n' :: rest) statements
  | line {c : Char} {more rest : List Char} {s : Statement} {statements : List Statement} :
      IsSolid c → statement? (c :: (more ++ '\n' :: rest)) = some (s, '\n' :: rest) →
      Stated rest statements → Stated (c :: (more ++ '\n' :: rest)) (s :: statements)

theorem Stated.statements_eq {cs : List Char} {lines : List Statement} (h : Stated cs lines)
    {fuel : Nat} (hfuel : cs.length < fuel) (before : List Statement) :
    statements fuel before cs = some (before.reverse ++ lines) := by
  induction h generalizing fuel before with
  | nil =>
    obtain ⟨fuel, rfl⟩ := Nat.exists_eq_add_of_lt hfuel
    rw [List.append_nil]
    rfl
  | @blank rest lines _ ih =>
    obtain ⟨fuel, rfl⟩ := Nat.exists_eq_add_of_lt (Nat.zero_lt_of_lt hfuel)
    rw [Nat.zero_add] at hfuel ⊢
    have hrest := ih (Nat.lt_of_succ_lt hfuel) before
    rw [statements.eq_def] at hrest ⊢
    exact hrest
  | @line c more rest s lines hsolid hstatement _ ih =>
    obtain ⟨fuel, rfl⟩ := Nat.exists_eq_add_of_lt (Nat.zero_lt_of_lt hfuel)
    rw [Nat.zero_add] at hfuel ⊢
    have hshorter : rest.length < fuel := by
      simp only [List.length_cons, List.length_append] at hfuel
      omega
    have hrest := ih hshorter (s :: before)
    rw [List.reverse_cons, List.append_assoc, List.singleton_append] at hrest
    rw [statements, skipLines_solid hsolid]
    simp only [hstatement]
    exact hrest

theorem Stated.ne_mark {cs : List Char} {lines : List Statement} (h : Stated cs lines)
    (rest : List Char) : cs ≠ '\uFEFF' :: rest := by
  cases h with
  | nil => exact nofun
  | blank => exact fun heq => absurd (List.cons.inj heq).1 (by decide)
  | line hsolid => exact fun heq => hsolid.2.2.2.2 (List.cons.inj heq).1

/-- Before any lines, the text adds the statements to theirs. -/
def States (text : List Char) (added : List Statement) : Prop :=
  ∀ rest lines, Stated rest lines → Stated (text ++ rest) (added ++ lines)

theorem states_nil : States [] [] :=
  fun _ _ h => h

theorem States.append {text more : List Char} {added further : List Statement}
    (h : States text added) (hmore : States more further) :
    States (text ++ more) (added ++ further) := by
  intro rest lines hrest
  rw [List.append_assoc, List.append_assoc]
  exact h _ _ (hmore _ _ hrest)

theorem States.eq_nil {added : List Statement} (h : States [] added) : added = [] := by
  have hempty := h [] [] .nil
  rw [List.nil_append, List.append_nil] at hempty
  cases hempty
  rfl

theorem states_define {path : List String} {last : String} (h : ∀ k ∈ path ++ [last], IsBare k) :
    States ("[" ++ header (path ++ [last]) ++ "]\n").toList [.define path last] := by
  intro rest lines hrest
  have hstatement : statement? ('[' :: (((header (path ++ [last])).toList ++ [']']) ++
      '\n' :: rest)) = some (.define path last, '\n' :: rest) := by
    rw [List.append_assoc]
    exact statement?_define h _
  have htext : ("[" ++ header (path ++ [last]) ++ "]\n").toList ++ rest =
      '[' :: (((header (path ++ [last])).toList ++ [']']) ++ '\n' :: rest) := by
    simp only [String.toList_append, List.append_assoc]
    rfl
  rw [htext]
  exact .line (by decide) hstatement hrest

theorem states_extend {path : List String} {last : String} (h : ∀ k ∈ path ++ [last], IsBare k) :
    States ("[[" ++ header (path ++ [last]) ++ "]]\n").toList [.extend path last] := by
  intro rest lines hrest
  have hstatement : statement? ('[' :: ('[' :: ((header (path ++ [last])).toList ++ [']', ']']) ++
      '\n' :: rest)) = some (.extend path last, '\n' :: rest) := by
    rw [List.cons_append, List.append_assoc]
    exact statement?_extend h _
  have htext : ("[[" ++ header (path ++ [last]) ++ "]]\n").toList ++ rest =
      '[' :: ('[' :: ((header (path ++ [last])).toList ++ [']', ']']) ++ '\n' :: rest) := by
    simp only [String.toList_append, List.append_assoc, List.cons_append]
    rfl
  rw [htext]
  exact .line (by decide) hstatement hrest

theorem states_assign {key : String} (hkey : IsBare key) {text : String} {d : Document}
    (h : IsEntryText text.toList d) :
    States (keyText key ++ " = " ++ text ++ "\n").toList [.assign [] key d] := by
  intro rest lines hrest
  have hstatement := statement?_assign hkey h rest
  have hbare : keyText key = key := if_pos hkey
  obtain ⟨c, more, hhead, hc⟩ := hkey.head
  have htext : (keyText key ++ " = " ++ text ++ "\n").toList ++ rest =
      c :: ((more ++ (' ' :: '=' :: ' ' :: text.toList)) ++ '\n' :: rest) := by
    simp only [hbare, String.toList_append, hhead, List.append_assoc, List.cons_append]
    rfl
  rw [htext]
  refine .line (isSolid_of_isKeyChar hc) ?_ hrest
  rw [hhead, List.cons_append] at hstatement
  simpa only [List.append_assoc, List.cons_append] using hstatement

end Statements

section Entries

variable {f : Binary64 → Document}

theorem Scalar.isEntryText {d : Document} (h : Scalar f d) :
    IsEntryText (valueText d).toList (d.mapFloats f) := by
  have hread := h.readsAs
  have htext : valueText d = inlineText d := by
    cases h <;> rfl
  rw [htext]
  obtain ⟨c, more, hhead, hsolid, -⟩ := hread.head
  refine ⟨⟨c, more, hhead, hsolid⟩, fun rest => hread.read _ _ fun c hc => ?_⟩
  exact .inl (Option.some.inj hc).symm

theorem list_isEntryText {items : List Document} (h : ∀ d ∈ items, Scalar f d) :
    IsEntryText (valueText (.list items)).toList ((Document.list items).mapFloats f) := by
  exact ⟨⟨'[', _, valueText_list items, by decide⟩,
    fun rest => valueWithin_list h ('\n' :: rest) 79⟩

end Entries

end EmuControl.Toml
