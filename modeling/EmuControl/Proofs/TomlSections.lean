import EmuControl.Proofs.DocumentReading
import EmuControl.Proofs.TomlStatement

/-!
# Tables of written TOML

A document is written as a sequence of sections, and a section adds to the table that its header
names. At every moment the table that is added to is the last one of the last one, and so on up to
the root: `plug` puts a table into the place that a stack of frames leaves for it. Each section
fills the place that its header opens, and a file ends with all the tables of the document, the
plain entries of every table before its sections. The numbers in them are those that their texts
are read as.
-/
namespace EmuControl.Toml

open EmuControl.Number

/-- What is open at the end of a table: a table, or the last table of an array. -/
inductive Socket where
  | branch (origin : Origin)
  | series (earlier : List Children)

def Socket.fill : Socket → Children → Tree
  | branch origin, content => .branch origin content
  | series earlier, content => .series (content :: earlier)

/-- A table whose last entry is open. -/
structure Frame where
  before : Children
  key : String
  socket : Socket
  fresh : key ∉ before.map (·.1)
  bare : IsBare key

/-- The outermost table, with the given content in its innermost open place. -/
def plug : List Frame → Children → Children
  | [], content => content
  | f :: inner, content => f.before ++ [(f.key, f.socket.fill (plug inner content))]

/-- The keys that lead to the open place. -/
def path (frames : List Frame) : List String :=
  frames.map (·.key)

section Zipper

theorem alter_append {key : String} {f : Option Tree → Option Tree} {before : Children}
    (h : key ∉ before.map (·.1)) (rest : Children) :
    Children.alter key f (before ++ rest) = (rest.alter key f).map (before ++ ·) := by
  induction before with
  | nil => exact Option.map_id'.symm
  | cons e before ih =>
    obtain ⟨k, t⟩ := e
    rw [List.map_cons, List.mem_cons, not_or] at h
    rw [List.cons_append, Children.alter, if_neg (Ne.symm h.1), ih h.2, Option.map_map]
    rfl

theorem alter_fresh {key : String} {f : Option Tree → Option Tree} {before : Children}
    (h : key ∉ before.map (·.1)) :
    Children.alter key f before = (f none).map fun t => before ++ [(key, t)] := by
  have hend := alter_append (f := f) h []
  rw [List.append_nil] at hend
  rw [hend, Children.alter, Option.map_map]
  rfl

theorem alter_last {key : String} {f : Option Tree → Option Tree} {before : Children}
    (h : key ∉ before.map (·.1)) (t : Tree) :
    Children.alter key f (before ++ [(key, t)]) =
      (f (some t)).map fun t => before ++ [(key, t)] := by
  rw [alter_append h, Children.alter, if_pos rfl, Option.map_map]
  rfl

theorem within_plug (frames : List Frame) (g : Children → Option Children) (content : Children) :
    within (path frames) g (plug frames content) = (g content).map (plug frames) := by
  induction frames with
  | nil => exact Option.map_id'.symm
  | cons f inner ih =>
    obtain ⟨before, key, socket, fresh, bare⟩ := f
    change Children.alter key _ (before ++ [(key, _)]) = _
    rw [alter_last fresh]
    cases socket with
    | branch origin =>
      change ((within (path inner) g (plug inner content)).map _).map _ = _
      rw [ih, Option.map_map, Option.map_map]
      rfl
    | series earlier =>
      change ((within (path inner) g (plug inner content)).map _).map _ = _
      rw [ih, Option.map_map, Option.map_map]
      rfl

theorem descend_plug (frames : List Frame) (g : Children → Option Children) (content : Children) :
    Children.descend .implied (path frames) g (plug frames content) =
      (g content).map (plug frames) := by
  induction frames with
  | nil => exact Option.map_id'.symm
  | cons f inner ih =>
    obtain ⟨before, key, socket, fresh, bare⟩ := f
    change Children.alter key _ (before ++ [(key, _)]) = _
    rw [alter_last fresh]
    cases socket with
    | branch origin =>
      change ((Children.descend .implied (path inner) g (plug inner content)).map _).map _ = _
      rw [ih, Option.map_map, Option.map_map]
      rfl
    | series earlier =>
      change ((Children.descend .implied (path inner) g (plug inner content)).map _).map _ = _
      rw [ih, Option.map_map, Option.map_map]
      rfl

theorem plug_snoc (frames : List Frame) (f : Frame) (content : Children) :
    plug (frames ++ [f]) content =
      plug frames (f.before ++ [(f.key, f.socket.fill content)]) := by
  induction frames with
  | nil => rfl
  | cons g inner ih => rw [List.cons_append, plug, ih, plug]

theorem path_snoc (frames : List Frame) (f : Frame) :
    path (frames ++ [f]) = path frames ++ [f.key] :=
  List.map_append

theorem bare_path (frames : List Frame) {key : String} (h : IsBare key) :
    ∀ k ∈ path frames ++ [key], IsBare k := by
  intro k hk
  rcases List.mem_append.mp hk with hk | hk
  · obtain ⟨f, -, rfl⟩ := List.mem_map.mp hk
    exact f.bare
  · exact List.mem_singleton.mp hk ▸ h

end Zipper

section Steps

variable (frames : List Frame)

theorem apply_assign {content : Children} {key : String} (h : key ∉ content.map (·.1))
    (d : Document) :
    Sections.apply ⟨plug frames content, path frames⟩ (.assign [] key d) =
      some ⟨plug frames (content ++ [(key, .leaf d)]), path frames⟩ := by
  have hinsert : content.assign [] key d = some (content ++ [(key, .leaf d)]) := alter_fresh h
  rw [Sections.apply, within_plug, hinsert]
  rfl

/-- A header opens a table at the end of the one that is open. -/
theorem apply_define {f : Frame} (hsocket : f.socket = .branch .defined) (current : List String) :
    Sections.apply ⟨plug frames f.before, current⟩ (.define (path frames) f.key) =
      some ⟨plug (frames ++ [f]) [], path (frames ++ [f])⟩ := by
  rw [plug_snoc, path_snoc, hsocket, Sections.apply, Children.define, descend_plug,
    alter_fresh f.fresh]
  rfl

/-- The entry of an array of tables, last one first, which stands there as soon as there is one. -/
def seriesEntry (key : String) : List Children → Children
  | [] => []
  | last :: earlier => [(key, .series (last :: earlier))]

/-- A header of an array opens a table behind those that the array has. -/
theorem apply_extend {f : Frame} {built : List Children} (hsocket : f.socket = .series built)
    (current : List String) :
    Sections.apply ⟨plug frames (f.before ++ seriesEntry f.key built), current⟩
      (.extend (path frames) f.key) = some ⟨plug (frames ++ [f]) [], path (frames ++ [f])⟩ := by
  rw [plug_snoc, path_snoc, hsocket, Sections.apply, Children.extend, descend_plug]
  cases built with
  | nil =>
    rw [seriesEntry, List.append_nil, alter_fresh f.fresh]
    rfl
  | cons last earlier =>
    rw [seriesEntry, alter_last f.fresh]
    rfl

end Steps

section Blocks

/-- The blocks of a file consist of the statements. -/
inductive Sectioned : List String → List Statement → Prop
  | nil : Sectioned [] []
  | cons {block : String} {blocks : List String} {added further : List Statement} :
      States block.toList added → Sectioned blocks further →
      Sectioned (block :: blocks) (added ++ further)

theorem Sectioned.append {blocks more : List String} {added further : List Statement}
    (h : Sectioned blocks added) (hmore : Sectioned more further) :
    Sectioned (blocks ++ more) (added ++ further) := by
  induction h with
  | nil => exact hmore
  | cons hblock _ ih =>
    rw [List.append_assoc]
    exact .cons hblock ih

/-- Empty blocks are left out, and an empty line stands between any two others. -/
theorem Sectioned.states {blocks : List String} {added : List Statement}
    (h : Sectioned blocks added) :
    States ("\n".intercalate (blocks.filter fun b => !b.isEmpty)).toList added := by
  induction h with
  | nil => exact states_nil
  | @cons block blocks added further hblock _ ih =>
    cases hempty : block.isEmpty with
    | true =>
      obtain rfl : block = "" := String.isEmpty_iff.mp hempty
      obtain rfl := hblock.eq_nil
      exact ih
    | false =>
      rw [List.filter_cons_of_pos (by simp [hempty])]
      cases hrest : blocks.filter fun b => !b.isEmpty with
      | nil =>
        rw [hrest] at ih
        obtain rfl := ih.eq_nil
        rw [List.append_nil, String.intercalate_singleton]
        exact hblock
      | cons next others =>
        rw [hrest] at ih
        rw [String.intercalate_cons_cons, String.toList_append, String.toList_append,
          List.append_assoc]
        exact hblock.append fun rest lines hlines => .blank (ih rest lines hlines)

/-- Reading the blocks in that state leads to the root. -/
def Builds (blocks : List String) (s : Sections) (root : Children) : Prop :=
  ∃ added current, Sectioned blocks added ∧ added.foldlM Sections.apply s = some ⟨root, current⟩

theorem builds_nil (root : Children) (current : List String) : Builds [] ⟨root, current⟩ root :=
  ⟨[], current, .nil, rfl⟩

theorem Builds.append {blocks more : List String} {s : Sections} {root final : Children}
    (h : Builds blocks s root) (hmore : ∀ current, Builds more ⟨root, current⟩ final) :
    Builds (blocks ++ more) s final := by
  obtain ⟨added, current, hblocks, hadded⟩ := h
  obtain ⟨further, last, hsections, hfurther⟩ := hmore current
  refine ⟨added ++ further, last, hblocks.append hsections, ?_⟩
  rw [List.foldlM_append, hadded]
  exact hfurther

/-- The first lines of a block may be read ahead. -/
theorem Builds.ahead {head block : String} {blocks : List String} {added : List Statement}
    {s t : Sections} {root : Children} (hhead : States head.toList added)
    (happly : added.foldlM Sections.apply s = some t) (h : Builds (block :: blocks) t root) :
    Builds ((head ++ block) :: blocks) s root := by
  obtain ⟨further, current, hblocks, hfurther⟩ := h
  cases hblocks with
  | @cons _ _ lines rest hblock hrest =>
    refine ⟨added ++ lines ++ rest, current, .cons ?_ hrest, ?_⟩
    · rw [String.toList_append]
      exact hhead.append hblock
    · rw [List.append_assoc, List.foldlM_append, happly]
      exact hfurther

end Blocks

section Tables

variable {f : Binary64 → Document}

/-- What is read for the entries of a table, whichever table it is, with the numbers that `f` says
are read. -/
structure IsContent (f : Binary64 → Document) (es : List (Option String × Document))
    (content : Children) : Prop where
  rearranged : ((Document.table es).mapFloats f).Rearranged (.table (entries content))
  builds : ∀ frames, Builds (plainLines es :: sections (path frames) es)
    ⟨plug frames [], path frames⟩ (plug frames content)

/-- What is read for a value under headers of its own, whichever entry it is of whichever table. -/
structure IsFiled (f : Binary64 → Document) (d : Document) (tree : Tree) : Prop where
  rearranged : (d.mapFloats f).Rearranged tree.toDocument
  builds : ∀ frames content key, key ∉ content.map (·.1) → IsBare key → ∀ current,
    Builds (valueSections (path frames ++ [key]) d) ⟨plug frames content, current⟩
      (plug frames (content ++ [(key, tree)]))

theorem IsContent.isFiled {es : List (Option String × Document)} {content : Children}
    (h : IsContent f es content) : IsFiled f (.table es) (.branch .defined content) := by
  refine ⟨h.rearranged, fun frames before key fresh bare current => ?_⟩
  let opened : Frame := ⟨before, key, .branch .defined, fresh, bare⟩
  have hbuilds := h.builds (frames ++ [opened])
  rw [path_snoc, plug_snoc _ _ content] at hbuilds
  refine .ahead (states_define (bare_path frames bare)) ?_ hbuilds
  rw [List.foldlM_cons, ← path_snoc]
  exact congrArg (· >>= _) (apply_define frames (f := opened) rfl current)

theorem tableList_eq (following : List Document) (tables : List Children) :
    tableList following tables =
      tables.reverse.map (fun t => .table (entries t)) ++ following := by
  induction tables generalizing following with
  | nil => rfl
  | cons t rest ih =>
    rw [tableList, ih, List.reverse_cons, List.map_append, List.append_assoc]
    rfl

theorem items_build (frames : List Frame) {before : Children} {key : String}
    (fresh : key ∉ before.map (·.1)) (bare : IsBare key)
    {tables : List (List (Option String × Document) × Children)}
    (h : ∀ t ∈ tables, IsContent f t.1 t.2) (built : List Children) (current : List String) :
    Builds (itemSections (path frames ++ [key]) (tables.map fun t => .table t.1))
      ⟨plug frames (before ++ seriesEntry key built), current⟩
      (plug frames (before ++ seriesEntry key ((tables.map (·.2)).reverse ++ built))) := by
  induction tables generalizing built current with
  | nil => exact builds_nil _ current
  | cons t rest ih =>
    obtain ⟨ht, hrest⟩ := List.forall_mem_cons.mp h
    let opened : Frame := ⟨before, key, .series built, fresh, bare⟩
    have hbuilds := ht.builds (frames ++ [opened])
    rw [path_snoc, plug_snoc _ _ t.2] at hbuilds
    have hitem : Builds (itemSection (path frames ++ [key]) (.table t.1))
        ⟨plug frames (before ++ seriesEntry key built), current⟩
        (plug frames (before ++ seriesEntry key (t.2 :: built))) := by
      refine .ahead (states_extend (bare_path frames bare)) ?_ hbuilds
      rw [List.foldlM_cons, ← path_snoc]
      exact congrArg (· >>= _) (apply_extend frames (f := opened) rfl current)
    rw [List.map_cons, List.map_cons, itemSections, List.reverse_cons, List.append_assoc]
    exact hitem.append fun current => ih hrest (t.2 :: built) current

theorem isFiled_tables {tables : List (List (Option String × Document) × Children)}
    (hne : tables ≠ []) (h : ∀ t ∈ tables, IsContent f t.1 t.2) :
    IsFiled f (.list (tables.map fun t => .table t.1)) (.series (tables.map (·.2)).reverse) := by
  refine ⟨?_, fun frames before key fresh bare current => ?_⟩
  · have hpairs : ∀ p ∈ tables.map fun t =>
        ((Document.table t.1).mapFloats f, Document.table (entries t.2)), p.1.Rearranged p.2 := by
      rw [List.forall_mem_map]
      exact fun t ht => (h t ht).rearranged
    have hlist := Document.Rearranged.list hpairs
    rw [List.map_map, List.map_map] at hlist
    rw [Document.mapFloats_list, List.map_map, Tree.toDocument, tableList_eq,
      List.reverse_reverse, List.append_nil, List.map_map]
    exact hlist
  · have hbuilds := items_build frames fresh bare h [] current
    have hall : ((tables.map fun t => Document.table t.1).all isTable) = true := by
      rw [List.all_map, List.all_eq_true]
      exact fun _ _ => rfl
    have hentry : seriesEntry key (tables.map (·.2)).reverse =
        [(key, .series (tables.map (·.2)).reverse)] := by
      cases hreverse : (tables.map (·.2)).reverse with
      | nil => exact absurd hreverse (by simpa using hne)
      | cons last earlier => rfl
    rw [List.append_nil, hentry, seriesEntry, List.append_nil] at hbuilds
    rw [valueSections, if_pos hall]
    exact hbuilds

/-- The entries of a table as they are written. -/
def keyed (fields : List (String × Document)) : List (Option String × Document) :=
  fields.map fun f => (some f.1, f.2)

theorem valueSections_plain {d : Document} (h : isPlain d = true) (path : List String) :
    valueSections path d = [] := by
  cases d with
  | list items =>
    cases items with
    | nil => rfl
    | cons item rest =>
      have hall : ((item :: rest).all isTable) = false := (Bool.not_eq_true' _).mp h
      rw [valueSections, hall, if_neg Bool.false_ne_true]
  | table es => exact Bool.noConfusion h
  | _ => rfl

theorem isPlain_tables {tables : List (List (Option String × Document) × Children)}
    (hne : tables ≠ []) : isPlain (.list (tables.map fun t => .table t.1)) = false := by
  obtain ⟨t, rest, rfl⟩ := List.exists_cons_of_ne_nil hne
  have hall : (rest.map fun t => Document.table t.1).all isTable = true := by
    rw [List.all_map, List.all_eq_true]
    exact fun _ _ => rfl
  change (!(true && (rest.map fun t => Document.table t.1).all isTable)) = false
  rw [hall]
  rfl

theorem fresh_of_nodup {before rest : Children} {key : String} {tree : Tree}
    (h : ((before ++ (key, tree) :: rest).map (·.1)).Nodup) : key ∉ before.map (·.1) := by
  rw [List.map_append, List.map_cons, List.perm_middle.nodup_iff, List.nodup_cons] at h
  exact fun hmem => h.1 (List.mem_append_left _ hmem)

/-- A table holds the values on its own lines first and those under headers behind them. -/
inductive Laid (f : Binary64 → Document) : List (String × Document) → Children → Children → Prop
  | nil : Laid f [] [] []
  | plain {key : String} {d : Document} {fields : List (String × Document)}
      {leaves trees : Children} : IsBare key → isPlain d = true →
      IsEntryText (valueText d).toList (d.mapFloats f) → Laid f fields leaves trees →
      Laid f ((key, d) :: fields) ((key, .leaf (d.mapFloats f)) :: leaves) trees
  | filed {key : String} {d : Document} {tree : Tree} {fields : List (String × Document)}
      {leaves trees : Children} : IsBare key → isPlain d = false → IsFiled f d tree →
      Laid f fields leaves trees → Laid f ((key, d) :: fields) leaves ((key, tree) :: trees)

theorem entries_eq_map (content : Children) :
    entries content = content.map fun c => (some c.1, c.2.toDocument) := by
  induction content with
  | nil => rfl
  | cons c rest ih => rw [entries, ih, List.map_cons]

namespace Laid

variable {fields : List (String × Document)} {leaves trees : Children}

theorem keys_perm (h : Laid f fields leaves trees) :
    (fields.map (·.1)).Perm ((leaves ++ trees).map (·.1)) := by
  induction h with
  | nil => exact .nil
  | plain _ _ _ _ ih => exact ih.cons _
  | filed _ _ _ _ ih =>
    refine (ih.cons _).trans ?_
    rw [List.map_append, List.map_append]
    exact List.perm_middle.symm

theorem rearranged (h : Laid f fields leaves trees) :
    ((Document.table (keyed fields)).mapFloats f).Rearranged
      (.table (entries (leaves ++ trees))) := by
  have hrows : ∃ rows : List (Option String × Document × Document),
      (keyed fields).map (fun e => (e.1, e.2.mapFloats f)) = rows.map (fun r => (r.1, r.2.1)) ∧
      (∀ r ∈ rows, r.2.1.Rearranged r.2.2) ∧
      (rows.map fun r => (r.1, r.2.2)).Perm (entries (leaves ++ trees)) := by
    induction h with
    | nil => exact ⟨[], rfl, fun _ hr => absurd hr List.not_mem_nil, .nil⟩
    | @plain key d _ _ _ _ _ _ _ ih =>
      obtain ⟨rows, hfields, hrows, hperm⟩ := ih
      refine ⟨(some key, d.mapFloats f, d.mapFloats f) :: rows, congrArg (_ :: ·) hfields, ?_,
        hperm.cons _⟩
      exact List.forall_mem_cons.mpr ⟨.refl _, hrows⟩
    | @filed key d tree _ _ _ _ _ hfiled _ ih =>
      obtain ⟨rows, hfields, hrows, hperm⟩ := ih
      refine ⟨(some key, d.mapFloats f, tree.toDocument) :: rows, congrArg (_ :: ·) hfields, ?_, ?_⟩
      · exact List.forall_mem_cons.mpr ⟨hfiled.rearranged, hrows⟩
      · refine (hperm.cons _).trans ?_
        simp only [entries_eq_map, List.map_append]
        exact List.perm_middle.symm
  obtain ⟨rows, hfields, hrows, hperm⟩ := hrows
  rw [Document.mapFloats_table, hfields]
  exact .table hrows hperm

/-- The lines of the plain values fill a table that had none of their keys. -/
theorem plain_builds (h : Laid f fields leaves trees) (frames : List Frame) {before : Children}
    (hkeys : ((before ++ leaves).map (·.1)).Nodup) :
    ∃ added, States (plainLines (keyed fields)).toList added ∧
      added.foldlM Sections.apply ⟨plug frames before, path frames⟩ =
        some ⟨plug frames (before ++ leaves), path frames⟩ := by
  induction h generalizing before with
  | nil =>
    rw [List.append_nil]
    exact ⟨[], states_nil, rfl⟩
  | @plain key d fields leaves trees hbare hplain htext _ ih =>
    have hfresh := fresh_of_nodup hkeys
    rw [List.append_cons] at hkeys ⊢
    obtain ⟨added, hstates, happly⟩ := ih hkeys
    have hlines : plainLines (keyed ((key, d) :: fields)) =
        (keyText key ++ " = " ++ valueText d ++ "\n") ++ plainLines (keyed fields) := by
      rw [plainLines, keyed, List.map_cons, List.map_cons, String.join_cons]
      exact congrArg (· ++ _) (if_pos hplain)
    refine ⟨.assign [] key (d.mapFloats f) :: added, ?_, ?_⟩
    · rw [hlines, String.toList_append]
      exact (states_assign hbare htext).append hstates
    · rw [List.foldlM_cons, apply_assign frames hfresh]
      exact happly
  | @filed key d tree fields leaves trees _ hplain _ _ ih =>
    have hlines : plainLines (keyed ((key, d) :: fields)) = plainLines (keyed fields) := by
      have hskip : (if isPlain d then keyText key ++ " = " ++ valueText d ++ "\n" else "") = "" :=
        if_neg (by simp [hplain])
      rw [plainLines, keyed, List.map_cons, List.map_cons, String.join_cons]
      exact (congrArg (· ++ _) hskip).trans String.empty_append
    rw [hlines]
    exact ih hkeys

/-- The sections of a table fill a table that had none of their keys. -/
theorem sections_build (h : Laid f fields leaves trees) (frames : List Frame) {before : Children}
    (hkeys : ((before ++ trees).map (·.1)).Nodup) (current : List String) :
    Builds (sections (path frames) (keyed fields)) ⟨plug frames before, current⟩
      (plug frames (before ++ trees)) := by
  induction h generalizing before current with
  | nil =>
    rw [List.append_nil]
    exact builds_nil _ current
  | @plain key d fields leaves trees _ hplain _ _ ih =>
    change Builds (valueSections (path frames ++ [key]) d ++ _) _ _
    rw [valueSections_plain hplain]
    exact ih hkeys current
  | @filed key d tree fields leaves trees hbare _ hfiled _ ih =>
    have hfresh := fresh_of_nodup hkeys
    rw [List.append_cons] at hkeys ⊢
    exact (hfiled.builds frames before key hfresh hbare current).append (ih hkeys)

theorem isContent (h : Laid f fields leaves trees) (hkeys : (fields.map (·.1)).Nodup) :
    IsContent f (keyed fields) (leaves ++ trees) := by
  refine ⟨h.rearranged, fun frames => ?_⟩
  have hall : ((leaves ++ trees).map (·.1)).Nodup := h.keys_perm.nodup_iff.mp hkeys
  have hleaves : ((([] : Children) ++ leaves).map (·.1)).Nodup := by
    rw [List.map_append] at hall
    exact (List.nodup_append.mp hall).1
  obtain ⟨added, hstates, happly⟩ := h.plain_builds frames hleaves
  have hplain : Builds [plainLines (keyed fields)] ⟨plug frames [], path frames⟩
      (plug frames leaves) := by
    refine ⟨added ++ [], path frames, .cons hstates .nil, ?_⟩
    rw [List.append_nil]
    exact happly
  exact hplain.append (h.sections_build frames hall)

end Laid

end Tables

section Files

/-- Documents that are written without loss, but for floating-point numbers: their texts are read as
`f` says. -/
inductive Expressible (f : Binary64 → Document) : Document → Prop
  | scalar {d : Document} : Scalar f d → Expressible f d
  | scalars {items : List Document} : (∀ d ∈ items, Scalar f d) → Expressible f (.list items)
  | table {fields : List (String × Document)} : (fields.map (·.1)).Nodup →
      (∀ e ∈ fields, IsBare e.1) → (∀ e ∈ fields, Expressible f e.2) →
      Expressible f (.table (keyed fields))
  | tables {tables : List (List (Option String × Document))} : tables ≠ [] →
      (∀ t ∈ tables, Expressible f (.table t)) → Expressible f (.list (tables.map .table))

/-- How a document gets into a file. -/
inductive Written (f : Binary64 → Document) : Document → Prop
  | plain {d : Document} : isPlain d = true →
      IsEntryText (valueText d).toList (d.mapFloats f) → Written f d
  | table {es : List (Option String × Document)} {content : Children} : IsContent f es content →
      Written f (.table es)
  | tables {tables : List (List (Option String × Document) × Children)} : tables ≠ [] →
      (∀ t ∈ tables, IsContent f t.1 t.2) → Written f (.list (tables.map fun t => .table t.1))

variable {f : Binary64 → Document}

theorem Written.exists_content {es : List (Option String × Document)}
    (h : Written f (.table es)) : ∃ content, IsContent f es content := by
  cases h with
  | plain hplain => exact Bool.noConfusion hplain
  | table hcontent => exact ⟨_, hcontent⟩

theorem exists_laid {fields : List (String × Document)} (hbare : ∀ e ∈ fields, IsBare e.1)
    (h : ∀ e ∈ fields, Written f e.2) : ∃ leaves trees, Laid f fields leaves trees := by
  induction fields with
  | nil => exact ⟨[], [], .nil⟩
  | cons e fields ih =>
    obtain ⟨key, d⟩ := e
    obtain ⟨hkey, hbare⟩ := List.forall_mem_cons.mp hbare
    obtain ⟨hd, hfields⟩ := List.forall_mem_cons.mp h
    obtain ⟨leaves, trees, hlaid⟩ := ih hbare hfields
    cases hd with
    | plain hplain htext => exact ⟨_, _, .plain hkey hplain htext hlaid⟩
    | table hcontent => exact ⟨_, _, .filed hkey rfl hcontent.isFiled hlaid⟩
    | tables hne hcontents =>
      exact ⟨_, _, .filed hkey (isPlain_tables hne) (isFiled_tables hne hcontents) hlaid⟩

theorem Expressible.written {d : Document} (h : Expressible f d) : Written f d := by
  induction h with
  | scalar hscalar =>
    refine .plain ?_ hscalar.isEntryText
    cases hscalar <;> rfl
  | @scalars items hitems =>
    refine .plain ?_ (list_isEntryText hitems)
    cases items with
    | nil => rfl
    | cons item rest =>
      have hitem : isTable item = false := by
        cases hitems item List.mem_cons_self <;> rfl
      rw [isPlain, List.all_cons, hitem]
      · rfl
      · exact nofun
  | table hkeys hbare _ ih =>
    obtain ⟨leaves, trees, hlaid⟩ := exists_laid hbare ih
    exact .table (hlaid.isContent hkeys)
  | @tables tables hne _ ih =>
    choose! content hcontent using fun t ht => (ih t ht).exists_content
    have hwritten :
        Written f (.list ((tables.map fun t => (t, content t)).map fun t => .table t.1)) :=
      .tables (by simpa using hne) (List.forall_mem_map.mpr hcontent)
    rwa [List.map_map] at hwritten

/-- What is written for a table is read as the same table, its plain entries before the others, but
for the numbers. -/
theorem parse?_pretty {es : List (Option String × Document)} (h : Expressible f (.table es)) :
    ∃ d, parse? (pretty (.table es)) = some d ∧
      ((Document.table es).mapFloats f).Rearranged d := by
  obtain ⟨content, hcontent⟩ := h.written.exists_content
  obtain ⟨added, current, hsections, happly⟩ := hcontent.builds []
  have hstated : Stated (pretty (.table es)).toList added := by
    have hall := hsections.states [] [] .nil
    rwa [List.append_nil, List.append_nil] at hall
  refine ⟨.table (entries content), ?_, hcontent.rearranged⟩
  have hlines := hstated.statements_eq (Nat.lt_succ_self _) []
  rw [parse?]
  split
  case h_1 rest heq => exact absurd heq (hstated.ne_mark rest)
  case h_2 =>
    rw [hlines]
    change (added.foldlM Sections.apply ⟨[], []⟩ >>= _) = _
    have hroot : added.foldlM Sections.apply ⟨[], []⟩ = some ⟨content, current⟩ := happly
    rw [hroot]
    rfl

end Files

end EmuControl.Toml
