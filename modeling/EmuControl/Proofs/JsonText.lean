import EmuControl.Proofs.DocumentReading
import EmuControl.Proofs.JsonToken

/-!
# JSON text of documents

A document that JSON can express is read back from its text, at any depth of nesting, with those
numbers that their own texts are read as. JSON has no points in time, its integers have 64 bits, and
a floating-point number that is not finite comes back as `null`.

The text of a document is taken as a sequence of tokens that can stand before any rest. The tokens
of a document have one effect on the machine that reads them: the document is complete.
-/
namespace EmuControl.Json

open EmuControl.Number

/-- Documents whose text says all that is in them, but for floating-point numbers: their texts are
read as `f` says. -/
inductive Expressible (f : Binary64 → Document) : Document → Prop
  | null : Expressible f .null
  | bool (b : Bool) : Expressible f (.bool b)
  | integer {n : Int} : -(Nat.pow 2 63 : Int) ≤ n → n ≤ maxSignificand →
      Expressible f (.integer n)
  | float {x : Binary64} : parse? (floatText x) = some (f x) → Expressible f (.float x)
  | text (s : String) : Expressible f (.text s)
  | list {items : List Document} : (∀ d ∈ items, Expressible f d) → Expressible f (.list items)
  | table {entries : List (Option String × Document)} :
      (∀ e ∈ entries, e.1.isSome = true) → (∀ e ∈ entries, Expressible f e.2) →
      Expressible f (.table entries)

/-- Where a value may begin, the tokens complete the document. -/
def Denotes (tokens : List Token) (d : Document) : Prop :=
  ∀ frames expectation more, expectation = .value ∨ expectation = .valueOrEnd →
    State.run ⟨frames, expectation⟩ (tokens ++ more) =
      (State.complete frames d).bind fun s => s.run more

/-- The text consists of tokens that stand for the document. -/
def Spells (text : List Char) (d : Document) : Prop :=
  ∃ tokens, Lexed text tokens ∧ Denotes tokens d

section Machine

theorem run_cons (s : State) (t : Token) (more : List Token) :
    s.run (t :: more) = (s.step t).bind fun next => next.run more := by
  rw [State.run]
  cases s.step t <;> rfl

theorem run_cons_of_step {s next : State} {t : Token} (h : s.step t = some next)
    (more : List Token) : s.run (t :: more) = next.run more := by
  rw [run_cons, h, Option.bind_some]

/-- Where a value may begin, every token but the end of a list begins one. -/
theorem step_begin {expectation : Expectation}
    (h : expectation = .value ∨ expectation = .valueOrEnd) {t : Token} (ht : t ≠ .endList)
    (frames : List Frame) :
    State.step ⟨frames, expectation⟩ t = State.begin frames t := by
  rcases h with rfl | rfl
  · rfl
  · cases t with
    | endList => exact absurd rfl ht
    | _ => rfl

theorem denotes_token {t : Token} {d : Document}
    (h : ∀ frames, State.begin frames t = State.complete frames d) : Denotes [t] d := by
  intro frames expectation more hvalue
  have hend : t ≠ .endList := by
    rintro rfl
    exact absurd (h []) (by simp [State.begin, State.complete])
  rw [List.singleton_append, run_cons, step_begin hvalue hend, h]

theorem denotes_emptyList : Denotes [.beginList, .endList] (.list []) := by
  intro frames expectation more hvalue
  have hbegin : State.step ⟨frames, expectation⟩ .beginList =
      some ⟨.list [] :: frames, .valueOrEnd⟩ := step_begin hvalue (by simp) frames
  rw [List.cons_append, run_cons_of_step hbegin, List.singleton_append, run_cons]
  rfl

theorem denotes_emptyTable : Denotes [.beginTable, .endTable] (.table []) := by
  intro frames expectation more hvalue
  have hbegin : State.step ⟨frames, expectation⟩ .beginTable =
      some ⟨.table [] :: frames, .keyOrEnd⟩ := step_begin hvalue (by simp) frames
  rw [List.cons_append, run_cons_of_step hbegin, List.singleton_append, run_cons]
  rfl

/-- Behind an item of a list, the tokens add more items. -/
def AddsItems (tokens : List Token) (items : List Document) : Prop :=
  ∀ before outer more, State.run ⟨.list before :: outer, .commaOrEnd⟩ (tokens ++ more) =
    State.run ⟨.list (items.reverse ++ before) :: outer, .commaOrEnd⟩ more

theorem AddsItems.cons {first tokens : List Token} {d : Document} {items : List Document}
    (hfirst : Denotes first d) (h : AddsItems tokens items) :
    AddsItems (.comma :: (first ++ tokens)) (d :: items) := by
  intro before outer more
  have hvalue := hfirst (.list before :: outer) .value (tokens ++ more) (.inl rfl)
  have hcomma : State.step ⟨.list before :: outer, .commaOrEnd⟩ .comma =
      some ⟨.list before :: outer, .value⟩ := rfl
  rw [List.cons_append, List.append_assoc, run_cons_of_step hcomma, hvalue, List.reverse_cons,
    List.append_assoc]
  exact h (d :: before) outer more

theorem denotes_list {first tokens : List Token} {d : Document} {items : List Document}
    (hfirst : Denotes first d) (h : AddsItems tokens items) :
    Denotes (.beginList :: (first ++ (tokens ++ [.endList]))) (.list (d :: items)) := by
  intro frames expectation more hvalue
  have hbegin : State.step ⟨frames, expectation⟩ .beginList =
      some ⟨.list [] :: frames, .valueOrEnd⟩ := step_begin hvalue (by simp) frames
  have hhead := hfirst (.list [] :: frames) .valueOrEnd (tokens ++ .endList :: more) (.inr rfl)
  have htail := h [d] frames (.endList :: more)
  have hclose : State.step ⟨.list (items.reverse ++ [d]) :: frames, .commaOrEnd⟩ .endList =
      State.complete frames (.list (d :: items)) := by
    change State.complete frames (.list (items.reverse ++ [d]).reverse) = _
    rw [List.reverse_append, List.reverse_reverse]
    rfl
  simp only [List.cons_append, List.append_assoc, List.nil_append]
  rw [run_cons_of_step hbegin, hhead]
  change State.run ⟨.list [d] :: frames, .commaOrEnd⟩ _ = _
  rw [htail, run_cons, hclose]

/-- Behind an entry of a table, the tokens add more entries. -/
def AddsEntries (tokens : List Token) (entries : List (Option String × Document)) : Prop :=
  ∀ before outer more, State.run ⟨.table before :: outer, .commaOrEnd⟩ (tokens ++ more) =
    State.run ⟨.table (entries.reverse ++ before) :: outer, .commaOrEnd⟩ more

/-- A key and a colon behind it lead to the value of the entry. -/
theorem run_key {k : String} {expectation : Expectation}
    (h : expectation = .key ∨ expectation = .keyOrEnd)
    (before : List (Option String × Document)) (outer : List Frame) (more : List Token) :
    State.run ⟨.table before :: outer, expectation⟩ (.text (some k) :: .colon :: more) =
      State.run ⟨.entry before (some k) :: outer, .value⟩ more := by
  rcases h with rfl | rfl <;> rfl

theorem AddsEntries.cons {first tokens : List Token} {k : String} {d : Document}
    {entries : List (Option String × Document)} (hfirst : Denotes first d)
    (h : AddsEntries tokens entries) :
    AddsEntries (.comma :: .text (some k) :: .colon :: (first ++ tokens))
      ((some k, d) :: entries) := by
  intro before outer more
  have hvalue := hfirst (.entry before (some k) :: outer) .value (tokens ++ more) (.inl rfl)
  have hcomma : State.step ⟨.table before :: outer, .commaOrEnd⟩ .comma =
      some ⟨.table before :: outer, .key⟩ := rfl
  simp only [List.cons_append, List.append_assoc]
  rw [run_cons_of_step hcomma, run_key (.inl rfl), hvalue, List.reverse_cons, List.append_assoc]
  exact h ((some k, d) :: before) outer more

theorem denotes_table {first tokens : List Token} {k : String} {d : Document}
    {entries : List (Option String × Document)} (hfirst : Denotes first d)
    (h : AddsEntries tokens entries) :
    Denotes (.beginTable :: .text (some k) :: .colon :: (first ++ (tokens ++ [.endTable])))
      (.table ((some k, d) :: entries)) := by
  intro frames expectation more hvalue
  have hbegin : State.step ⟨frames, expectation⟩ .beginTable =
      some ⟨.table [] :: frames, .keyOrEnd⟩ := step_begin hvalue (by simp) frames
  have hhead := hfirst (.entry [] (some k) :: frames) .value (tokens ++ .endTable :: more)
    (.inl rfl)
  have htail := h [(some k, d)] frames (.endTable :: more)
  have hclose : State.step ⟨.table (entries.reverse ++ [(some k, d)]) :: frames, .commaOrEnd⟩
      .endTable = State.complete frames (.table ((some k, d) :: entries)) := by
    change State.complete frames (.table (entries.reverse ++ [(some k, d)]).reverse) = _
    rw [List.reverse_append, List.reverse_reverse]
    rfl
  simp only [List.cons_append, List.append_assoc, List.nil_append]
  rw [run_cons_of_step hbegin, run_key (.inr rfl), hhead]
  change State.run ⟨.table [(some k, d)] :: frames, .commaOrEnd⟩ _ = _
  rw [htail, run_cons, hclose]

end Machine

section Layout

theorem newline_toList (level : Nat) :
    (newline level).toList = '\n' :: List.replicate (2 * level) ' ' := by
  simp only [newline, String.toList_append, String.toList_ofList]
  rfl

theorem Lexes.newline {rest : List Char} {tokens : List Token} (h : Lexes rest tokens)
    (level : Nat) : Lexes ((newline level).toList ++ rest) tokens := by
  have hspaces : ∀ n, Lexes (List.replicate n ' ' ++ rest) tokens := by
    intro n
    induction n with
    | zero => exact h
    | succ n ih => exact .space rfl ih
  rw [newline_toList]
  exact .space rfl (hspaces _)

theorem stops_newline (level : Nat) (rest : List Char) :
    Stops ((newline level).toList ++ rest) := by
  intro c hc
  rw [newline_toList] at hc
  exact .inr (Option.some.inj hc).symm

theorem stops_comma (rest : List Char) : Stops (',' :: rest) :=
  fun _ hc => .inl (Option.some.inj hc).symm

/-- A mark of punctuation is one token before any text. -/
theorem Lexes.mark {c : Char} {t : Token} {rest : List Char} {tokens : List Token}
    (hspace : isSpace c = false) (htoken : lexToken c rest = some (t, rest))
    (h : Lexes rest tokens) : Lexes (c :: rest) (t :: tokens) :=
  .token hspace htoken (Nat.le_refl _) h

theorem lexes_key {rest : List Char} {tokens : List Token} (h : Lexes rest tokens) (k : String) :
    Lexes ((quoted k).toList ++ (':' :: ' ' :: rest)) (.text (some k) :: .colon :: tokens) := by
  have hcolon : Lexes (':' :: ' ' :: rest) (.colon :: tokens) :=
    .mark rfl rfl (.space rfl h)
  exact hcolon.text k

theorem stops_renderItems {rest : List Char} (h : Stops rest) (level : Nat)
    (items : List Document) : Stops ((renderItems level items).toList ++ rest) := by
  cases items with
  | nil => exact h
  | cons d items =>
    simp only [renderItems, String.toList_append, List.append_assoc]
    exact stops_comma _

theorem stops_renderEntries {rest : List Char} (h : Stops rest) (level : Nat)
    (entries : List (Option String × Document)) :
    Stops ((renderEntries level entries).toList ++ rest) := by
  cases entries with
  | nil => exact h
  | cons e entries =>
    simp only [renderEntries, String.toList_append, List.append_assoc]
    exact stops_comma _

end Layout

section Documents

theorem spells_token {text : List Char} {t : Token} {d : Document} (hlexed : Lexed text [t])
    (h : ∀ frames, State.begin frames t = State.complete frames d) : Spells text d :=
  ⟨[t], hlexed, denotes_token h⟩

theorem lexed_word {c : Char} {cs : List Char} {t : Token} (hspace : isSpace c = false)
    (htoken : ∀ rest, lexToken c (cs ++ rest) = some (t, rest)) : Lexed (c :: cs) [t] := by
  intro rest more _ hmore
  have hlength : rest.length ≤ (cs ++ rest).length := by
    rw [List.length_append]
    omega
  exact .token hspace (htoken rest) hlength hmore

theorem spells_null : Spells ['n', 'u', 'l', 'l'] .null :=
  spells_token (lexed_word rfl fun _ => rfl) fun _ => rfl

theorem floatText_of_not_finite {x : Binary64} (hx : x.isFinite = false) :
    floatText x = "null" := by
  rw [floatText, hx]
  rfl

/-- The text of a finite number is read as such a number. -/
theorem exists_spells_float {x : Binary64} (hx : x.isFinite = true) :
    ∃ y, Spells (floatText x).toList (.float y) := by
  obtain ⟨n, y, hvalue, hlexed⟩ := float_lexed hx
  exact ⟨y, spells_token hlexed fun frames => by rw [State.begin, hvalue]⟩

theorem Spells.parse?_eq {s : String} {d : Document} (h : Spells s.toList d) :
    parse? s = some d := by
  obtain ⟨tokens, hlexed, hdenotes⟩ := h
  have htext := hlexed [] [] (fun _ hc => absurd hc (Option.not_mem_none _)) .nil
  have hrun := hdenotes [] .value [] (.inl rfl)
  rw [List.append_nil, List.append_nil] at htext
  rw [List.append_nil] at hrun
  rw [parse?, htext.tokens?_eq, Option.bind_eq_bind, Option.bind_some, hrun]
  rfl

/-- The text of a number stands for what it is read as alone. -/
theorem spells_float {x : Binary64} {d : Document} (h : parse? (floatText x) = some d) :
    Spells (floatText x).toList d := by
  cases hx : x.isFinite with
  | true =>
    obtain ⟨y, hspells⟩ := exists_spells_float hx
    obtain rfl := Option.some.inj (h.symm.trans hspells.parse?_eq)
    exact hspells
  | false =>
    have hspells : Spells (floatText x).toList .null :=
      floatText_of_not_finite hx ▸ spells_null
    obtain rfl := Option.some.inj (h.symm.trans hspells.parse?_eq)
    exact hspells

theorem spells_integer {n : Int} (hlo : -(Nat.pow 2 63 : Int) ≤ n) (hhi : n ≤ maxSignificand) :
    Spells (writeInteger n).toList (.integer n) := by
  obtain ⟨m, hvalue, hlexed⟩ := integer_lexed hlo hhi
  exact spells_token hlexed fun frames => by rw [State.begin, hvalue]

variable {f : Binary64 → Document}

theorem spells_items {level : Nat} {items : List Document}
    (h : ∀ d ∈ items, Spells (render level d).toList (d.mapFloats f)) :
    ∃ tokens, Lexed (renderItems level items).toList tokens ∧
      AddsItems tokens (items.map (Document.mapFloats f)) := by
  induction items with
  | nil => exact ⟨[], fun _ _ _ hmore => hmore, fun _ _ _ => rfl⟩
  | cons d items ih =>
    obtain ⟨hd, hitems⟩ := List.forall_mem_cons.mp h
    obtain ⟨first, hfirst, hdenotes⟩ := hd
    obtain ⟨tokens, hlexed, hadds⟩ := ih hitems
    refine ⟨_, fun rest more hrest hmore => ?_, hadds.cons hdenotes⟩
    have htail := hlexed rest more hrest hmore
    have hvalue := hfirst _ _ (stops_renderItems hrest level items) htail
    simp only [renderItems, String.toList_append, List.append_assoc, List.cons_append]
    exact .mark rfl rfl (hvalue.newline level)

theorem spells_list {level : Nat} {items : List Document}
    (h : ∀ d ∈ items, Spells (render (level + 1) d).toList (d.mapFloats f)) :
    Spells (render level (.list items)).toList ((Document.list items).mapFloats f) := by
  rw [Document.mapFloats_list]
  cases items with
  | nil =>
    have htext : Lexed ['[', ']'] [.beginList, .endList] :=
      fun _ _ _ hmore => .mark rfl rfl (.mark rfl rfl hmore)
    rw [render]
    exact ⟨_, htext, denotes_emptyList⟩
  | cons d items =>
    obtain ⟨hd, hitems⟩ := List.forall_mem_cons.mp h
    obtain ⟨first, hfirst, hdenotes⟩ := hd
    obtain ⟨tokens, hlexed, hadds⟩ := spells_items hitems
    refine ⟨_, fun rest more _ hmore => ?_, denotes_list hdenotes hadds⟩
    have hend : Lexes (']' :: rest) (.endList :: more) := .mark rfl rfl hmore
    have hstops := stops_newline level (']' :: rest)
    have htail := hlexed _ _ hstops (hend.newline level)
    have hvalue := hfirst _ _ (stops_renderItems hstops (level + 1) items) htail
    simp only [render, String.toList_append, List.append_assoc, List.cons_append, List.nil_append]
    exact .mark rfl rfl (hvalue.newline (level + 1))

theorem spells_entries {level : Nat} {entries : List (Option String × Document)}
    (hkeys : ∀ e ∈ entries, e.1.isSome = true)
    (h : ∀ e ∈ entries, Spells (render level e.2).toList (e.2.mapFloats f)) :
    ∃ tokens, Lexed (renderEntries level entries).toList tokens ∧
      AddsEntries tokens (entries.map fun e => (e.1, e.2.mapFloats f)) := by
  induction entries with
  | nil => exact ⟨[], fun _ _ _ hmore => hmore, fun _ _ _ => rfl⟩
  | cons e entries ih =>
    obtain ⟨hd, hentries⟩ := List.forall_mem_cons.mp h
    obtain ⟨hkey, hkeys⟩ := List.forall_mem_cons.mp hkeys
    obtain ⟨first, hfirst, hdenotes⟩ := hd
    obtain ⟨tokens, hlexed, hadds⟩ := ih hkeys hentries
    obtain ⟨key, d⟩ := e
    obtain ⟨k, rfl⟩ := Option.isSome_iff_exists.mp hkey
    refine ⟨_, fun rest more hrest hmore => ?_, hadds.cons hdenotes⟩
    have htail := hlexed rest more hrest hmore
    have hvalue := hfirst _ _ (stops_renderEntries hrest level entries) htail
    have hentry := (lexes_key hvalue k).newline level
    simp only [renderEntries, String.toList_append, List.append_assoc, List.cons_append]
    exact .mark rfl rfl hentry

theorem spells_table {level : Nat} {entries : List (Option String × Document)}
    (hkeys : ∀ e ∈ entries, e.1.isSome = true)
    (h : ∀ e ∈ entries, Spells (render (level + 1) e.2).toList (e.2.mapFloats f)) :
    Spells (render level (.table entries)).toList ((Document.table entries).mapFloats f) := by
  rw [Document.mapFloats_table]
  cases entries with
  | nil =>
    have htext : Lexed ['\x7b', '\x7d'] [.beginTable, .endTable] :=
      fun _ _ _ hmore => .mark rfl rfl (.mark rfl rfl hmore)
    rw [render]
    exact ⟨_, htext, denotes_emptyTable⟩
  | cons e entries =>
    obtain ⟨hd, hentries⟩ := List.forall_mem_cons.mp h
    obtain ⟨hkey, hkeys⟩ := List.forall_mem_cons.mp hkeys
    obtain ⟨first, hfirst, hdenotes⟩ := hd
    obtain ⟨tokens, hlexed, hadds⟩ := spells_entries hkeys hentries
    obtain ⟨key, d⟩ := e
    obtain ⟨k, rfl⟩ := Option.isSome_iff_exists.mp hkey
    refine ⟨_, fun rest more _ hmore => ?_, denotes_table hdenotes hadds⟩
    have hend : Lexes ('\x7d' :: rest) (.endTable :: more) := .mark rfl rfl hmore
    have hstops := stops_newline level ('\x7d' :: rest)
    have htail := hlexed _ _ hstops (hend.newline level)
    have hvalue := hfirst _ _ (stops_renderEntries hstops (level + 1) entries) htail
    have hentry := (lexes_key hvalue k).newline (level + 1)
    simp only [render, String.toList_append, List.append_assoc, List.cons_append, List.nil_append]
    exact .mark rfl rfl hentry

theorem Expressible.spells {d : Document} (h : Expressible f d) (level : Nat) :
    Spells (render level d).toList (d.mapFloats f) := by
  induction h generalizing level with
  | null =>
    rw [render]
    exact spells_null
  | bool b =>
    have htrue : Lexed ['t', 'r', 'u', 'e'] [.bool true] := lexed_word rfl fun _ => rfl
    have hfalse : Lexed ['f', 'a', 'l', 's', 'e'] [.bool false] := lexed_word rfl fun _ => rfl
    rw [render]
    cases b with
    | true => exact spells_token htrue fun _ => rfl
    | false => exact spells_token hfalse fun _ => rfl
  | integer hlo hhi =>
    rw [render]
    exact spells_integer hlo hhi
  | float hread =>
    rw [render]
    exact spells_float hread
  | text s =>
    rw [render]
    exact spells_token (fun _ _ _ hmore => hmore.text s) fun _ => rfl
  | list _ ih => exact spells_list fun d hd => ih d hd (level + 1)
  | table hkeys _ ih => exact spells_table hkeys fun e he => ih e he (level + 1)

/-- What JSON can express is read back as it was written, but for the numbers. -/
theorem parse?_pretty {d : Document} (h : Expressible f d) :
    parse? (pretty d) = some (d.mapFloats f) :=
  (h.spells 0).parse?_eq

end Documents

end EmuControl.Json
