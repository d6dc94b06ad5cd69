import EmuControl.Daemon.Recording
import EmuControl.Proofs.Deed
import EmuControl.Proofs.JsonText
import EmuControl.Proofs.SortedLookup
import EmuControl.Proofs.TomlSections
import EmuControl.Proofs.TopologyValidation

/-!
# Topologies in files

What a topology is written as has only parts that both formats express, with what the format reads
in the text that it has for a number in the place of that number. So if each number is read back, a
valid topology that was saved is the one that is loaded, from a file of either format, and a copy in
the other format says the same.
-/
namespace EmuControl

open EmuControl.Number

namespace FileFormat

section Names

/-- The path leads to a file of that name. -/
def Names (path : String) (name : List Char) : Prop :=
  name ≠ [] ∧ name ≠ ['.'] ∧ '/' ∉ name ∧
    (path.toList = name ∨ ∃ directory, path.toList = directory ++ '/' :: name)

theorem lastComponent_of_names {path : String} {name : List Char} (h : Names path name) :
    lastComponent path = name := by
  obtain ⟨hne, hdot, hslash, hpath⟩ := h
  have hwhole : name.splitOn '/' = [name] :=
    List.splitOnP_eq_singleton fun c hc => beq_false_of_ne fun heq => hslash (heq ▸ hc)
  have hkept : [name].filter (fun p => p ≠ [] && p ≠ ['.']) = [name] := by
    simp [hne, hdot]
  rw [lastComponent]
  rcases hpath with hpath | ⟨directory, hpath⟩
  · rw [hpath, hwhole, hkept]
    rfl
  · have hsplit : (directory ++ '/' :: name).splitOn '/' =
        directory.splitOn '/' ++ name.splitOn '/' := List.splitOnP_append_cons _ _ rfl
    rw [hpath, hsplit, hwhole, List.filter_append, hkept]
    simp

theorem ne_dot_of_reverse {cs : List Char} (h : '.' ∉ cs) :
    ∀ c ∈ cs.reverse, decide (c ≠ '.') = true := by
  intro c hc
  have hne : c ≠ '.' := fun heq => h (heq ▸ List.mem_reverse.mp hc)
  exact decide_eq_true hne

theorem extension?_undotted {path : String} {name : List Char} (h : Names path name)
    (hdot : '.' ∉ name) : extension? path = none := by
  have hspan : (name.reverse ++ []).span (· ≠ '.') = (name.reverse, []) :=
    Text.span_append (ne_dot_of_reverse hdot) (by simp)
  rw [List.append_nil] at hspan
  rw [extension?, lastComponent_of_names h]
  simp only [hspan]

theorem extension?_dotted {path : String} {stem ext : List Char}
    (h : Names path (stem ++ '.' :: ext)) (hdot : '.' ∉ ext) :
    extension? path = if stem = [] ∨ stem ++ '.' :: ext = ['.', '.'] then none else some ext := by
  have hspan : (stem ++ '.' :: ext).reverse.span (· ≠ '.') =
      (ext.reverse, '.' :: stem.reverse) := by
    rw [List.reverse_append, List.reverse_cons, List.append_assoc]
    exact Text.span_append (ne_dot_of_reverse hdot) (by simp)
  rw [extension?, lastComponent_of_names h]
  simp only [hspan, List.reverse_reverse]
  cases hstem : stem.reverse with
  | nil =>
    obtain rfl := List.reverse_eq_nil_iff.mp hstem
    simp
  | cons c more =>
    have hne : stem ≠ [] := fun heq => by simp [heq] at hstem
    simp only [hne, false_or]

/-- A name with a dot is split at its last one. -/
theorem exists_extension {name : List Char} (h : '.' ∈ name) :
    ∃ stem ext, name = stem ++ '.' :: ext ∧ '.' ∉ ext := by
  obtain ⟨tail, head, hreverse, htail⟩ := List.eq_append_cons_of_mem (List.mem_reverse.mpr h)
  refine ⟨head.reverse, tail.reverse, ?_, by simpa using htail⟩
  simpa using congrArg List.reverse hreverse

/-- The extension decides on the format, whatever its case. -/
theorem ofPath_eq_json_iff {path : String} {name : List Char} (h : Names path name) :
    ofPath path = .json ↔ ∃ stem ext, stem ≠ [] ∧ name = stem ++ '.' :: ext ∧
      ext.map Char.toLower = "json".toList := by
  have hofPath : ofPath path = .json ↔
      ∃ ext, extension? path = some ext ∧ ext.map Char.toLower = "json".toList := by
    rw [← Option.map_eq_some_iff]
    change (if _ then _ else _) = _ ↔ _
    simp
  rw [hofPath]
  constructor
  · rintro ⟨ext, hext, hlower⟩
    by_cases hdot : '.' ∈ name
    · obtain ⟨stem, last, rfl, hlast⟩ := exists_extension hdot
      rw [extension?_dotted h hlast] at hext
      split at hext
      case isTrue => cases hext
      case isFalse hstem =>
        obtain rfl := Option.some.inj hext
        exact ⟨stem, last, fun heq => hstem (.inl heq), rfl, hlower⟩
    · rw [extension?_undotted h hdot] at hext
      cases hext
  · rintro ⟨stem, ext, hstem, rfl, hlower⟩
    have hdot : '.' ∉ ext := by
      intro hmem
      have hlowered : '.' ∈ ext.map Char.toLower := List.mem_map.mpr ⟨'.', hmem, rfl⟩
      rw [hlower] at hlowered
      exact absurd hlowered (by decide)
    have hname : ¬ (stem = [] ∨ stem ++ '.' :: ext = ['.', '.']) := by
      rintro (heq | heq)
      · exact hstem heq
      · have hlength := congrArg List.length hlower
        have htwo := congrArg List.length heq
        have hpos := List.length_pos_iff.mpr hstem
        simp at hlength htwo
        omega
    refine ⟨ext, ?_, hlower⟩
    rw [extension?_dotted h hdot, if_neg hname]

end Names

/-- What the format reads in its text for a number. -/
def reread : FileFormat → Binary64 → Option Document
  | toml, x => Toml.scalar? (Toml.floatText x).toList
  | json, x => Json.parse? (Json.floatText x)

/-- The format reads the number back from its own text. -/
def Keeps (format : FileFormat) (x : Binary64) : Prop :=
  format.reread x = some (.float x)

instance (format : FileFormat) (x : Binary64) : Decidable (format.Keeps x) :=
  match h : format.reread x with
  | some (.float y) =>
    if heq : y = x then isTrue (by rw [Keeps, h, heq])
    else isFalse (by rw [Keeps, h]; simpa using heq)
  | some .null | some (.bool _) | some (.integer _) | some (.text _) | some (.list _)
  | some (.table _) | some .instant | some .unreadable | none => isFalse (by rw [Keeps, h]; simp)

/-- In the text for a number the format reads another number, or `null` if there is no other. -/
def Rereads (format : FileFormat) (g : Binary64 → Option Binary64) (x : Binary64) : Prop :=
  format.reread x = some (write (g x))

/-- The format has a text for the document that says all that is in it, with other numbers in the
place of its own. -/
def Expresses (format : FileFormat) (g : Binary64 → Option Binary64) : Document → Prop :=
  match format with
  | toml => Toml.Expressible (write ∘ g)
  | json => Json.Expressible (write ∘ g)

variable {format : FileFormat} {g : Binary64 → Option Binary64}

section Values

theorem expresses_text (s : String) : format.Expresses g (.text s) := by
  cases format with
  | toml => exact .scalar (.text s)
  | json => exact .text s

theorem expresses_int32 (n : Int32) : format.Expresses g (write n) := by
  have hlo : -2147483648 ≤ n.toInt := n.le_toInt
  have hhi : n.toInt < 2147483648 := n.toInt_lt
  cases format with
  | toml =>
    refine .scalar (.integer ?_ ?_)
    · change -(170141183460469231731687303715884105728 : Int) ≤ n.toInt
      omega
    · change n.toInt < (340282366920938463463374607431768211456 : Int)
      omega
  | json =>
    refine .integer ?_ ?_
    · change -(9223372036854775808 : Int) ≤ n.toInt
      omega
    · change n.toInt ≤ (18446744073709551615 : Int)
      omega

theorem expresses_float {x : Binary64} (h : format.Rereads g x) :
    format.Expresses g (write x) := by
  cases format with
  | toml => exact .scalar (.float h)
  | json => exact .float h

theorem expresses_texts (names : List String) : format.Expresses g (.list (names.map .text)) := by
  cases format with
  | toml => exact .scalars (List.forall_mem_map.mpr fun s _ => .text s)
  | json => exact .list (List.forall_mem_map.mpr fun s _ => .text s)

end Values

section Records

variable {α : Type} [Writable α] [Tabular α]

/-- The fields that are written, with their documents. -/
def written (fields : List (String × Option Document)) : List (String × Document) :=
  fields.flatMap fun f => f.2.toList.map fun d => (f.1, d)

theorem mem_written {fields : List (String × Option Document)} {e : String × Document} :
    e ∈ written fields ↔ (e.1, some e.2) ∈ fields := by
  obtain ⟨name, d⟩ := e
  simp only [written, List.mem_flatMap, List.mem_map, Option.mem_toList, Prod.mk.injEq]
  constructor
  · rintro ⟨⟨name, _⟩, hf, d, rfl, rfl, rfl⟩
    exact hf
  · exact fun hf => ⟨(name, some d), hf, d, rfl, rfl, rfl⟩

theorem layout_eq_keyed (fields : List (String × Option Document)) :
    layout fields = Toml.keyed (written fields) := by
  rw [layout, Toml.keyed, written, List.map_flatMap]
  simp only [List.map_map]
  rfl

theorem written_sublist (fields : List (String × Option Document)) :
    ((written fields).map (·.1)).Sublist (fields.map (·.1)) := by
  induction fields with
  | nil => exact .slnil
  | cons f rest ih =>
    obtain ⟨name, d⟩ := f
    cases d with
    | none => exact ih.cons name
    | some d => exact ih.cons_cons name

/-- A record is expressed when its fields are. -/
theorem expresses_record {a : α} (hnames : ((fields a).map (·.1)).all Toml.isBareKey = true)
    (h : ∀ f ∈ fields a, ∀ d ∈ f.2, format.Expresses g d) : format.Expresses g (write a) := by
  rw [write_eq_layout, layout_eq_keyed]
  have hfields : ∀ e ∈ written (fields a), format.Expresses g e.2 :=
    fun e he => h _ (mem_written.mp he) e.2 rfl
  cases format with
  | toml =>
    refine .table ((written_sublist _).nodup (names_nodup a)) (fun e he => ?_) hfields
    have hname : e.1 ∈ (fields a).map (·.1) := List.mem_map.mpr ⟨_, mem_written.mp he, rfl⟩
    exact List.all_eq_true.mp hnames e.1 hname
  | json => exact .table (List.forall_mem_map.mpr fun _ _ => rfl) (List.forall_mem_map.mpr hfields)

theorem expresses_records {items : List α} (h : ∀ a ∈ items, format.Expresses g (write a)) :
    format.Expresses g (write items) := by
  cases format with
  | toml =>
    by_cases hne : items = []
    · subst hne
      exact .scalars fun d hd => absurd hd List.not_mem_nil
    · have htables : write items =
          .list ((items.map fun a => layout (fields a)).map .table) := by
        rw [List.map_map]
        exact congrArg Document.list (List.map_congr_left fun a _ => write_eq_layout a)
      rw [htables]
      refine .tables (by simpa using hne) (List.forall_mem_map.mpr fun a ha => ?_)
      exact write_eq_layout a ▸ h a ha
  | json => exact .list (List.forall_mem_map.mpr h)

/-- The text of a record is read as the record, but for its numbers. -/
theorem parse?_render [Readable α] [Restorable α] {a : α} (h : format.Expresses g (write a)) :
    format.parse? (format.render a) = some (bindFloats g a) := by
  cases format with
  | toml =>
    have htable : Toml.Expressible (write ∘ g) (.table (layout (fields a))) :=
      write_eq_layout a ▸ h
    obtain ⟨d, hparse, hrearranged⟩ := Toml.parse?_pretty htable
    rw [← write_eq_layout] at hparse hrearranged
    change Toml.readText? (Toml.pretty (write a)) = _
    rw [Toml.readText?, hparse]
    exact read_of_rearranged hrearranged Toml.dialect
  | json =>
    change Json.readText? (Json.pretty (write a)) = _
    rw [Json.readText?, Json.parse?_pretty h]
    exact read_of_rearranged (.refl _) Json.dialect

end Records

end FileFormat

section Numbers

def Position.floats (p : Position) : List Binary64 :=
  p.x.toList ++ p.y.toList

def Node.floats (n : Node) : List Binary64 :=
  n.position.toList.flatMap Position.floats

def LinkOptions.floats (o : LinkOptions) : List Binary64 :=
  [o.bandwidth, o.burst, o.delay, o.jitter, o.dup, o.per, o.mburst, o.mer].flatMap Option.toList

def Link.floats (l : Link) : List Binary64 :=
  l.options.toList.flatMap LinkOptions.floats

/-- The numbers of a topology that are no integers. -/
def Topology.floats (t : Topology) : List Binary64 :=
  t.nodes.flatMap Node.floats ++ t.links.flatMap Link.floats

end Numbers

namespace FileFormat

/-- All the numbers are finite and are read back from their text. -/
def KeepsAll (format : FileFormat) (xs : List Binary64) : Prop :=
  ∀ x ∈ xs, x.isFinite = true ∧ format.Keeps x

variable {format : FileFormat} {g : Binary64 → Option Binary64}

theorem KeepsAll.rereads {xs : List Binary64} (h : format.KeepsAll xs) :
    ∀ x ∈ xs, format.Rereads some x :=
  fun x hx => (h x hx).2

section Topologies

theorem expresses_open {α : Type} [Writable α] {a : Option α}
    (h : ∀ x ∈ a, format.Expresses g (write x)) : ∀ d ∈ a.map write, format.Expresses g d := by
  intro d hd
  obtain ⟨x, hx, rfl⟩ := Option.map_eq_some_iff.mp hd
  exact h x hx

theorem expresses_openText (s : Option String) : ∀ d ∈ s.map write, format.Expresses g d :=
  expresses_open fun s _ => expresses_text s

theorem expresses_openInt32 (n : Option Int32) : ∀ d ∈ n.map write, format.Expresses g d :=
  expresses_open fun n _ => expresses_int32 n

theorem expresses_openFloat {x : Option Binary64} (h : ∀ y ∈ x.toList, format.Rereads g y) :
    ∀ d ∈ x.map write, format.Expresses g d :=
  expresses_open fun y hy => expresses_float (h y (Option.mem_toList.mpr hy))

theorem expresses_given {d : Document} (h : format.Expresses g d) :
    ∀ e ∈ some d, format.Expresses g e := by
  intro e he
  exact Option.some.inj he ▸ h

theorem expresses_position {p : Position} (h : ∀ x ∈ p.floats, format.Rereads g x) :
    format.Expresses g (write p) := by
  obtain ⟨hx, hy⟩ := List.forall_mem_append.mp h
  refine expresses_record (by simp only [fields, List.map_cons, List.map_nil]; decide) ?_
  simp only [fields, List.forall_mem_cons]
  exact ⟨expresses_openFloat hx, expresses_openFloat hy, List.forall_mem_nil _⟩

theorem expresses_interface (i : Interface) : format.Expresses g (write i) := by
  refine expresses_record (by simp only [fields, List.map_cons, List.map_nil]; decide) ?_
  simp only [fields, List.forall_mem_cons]
  exact ⟨expresses_openInt32 i.id, expresses_openText i.name, expresses_openText i.mac,
    expresses_openText i.ip4, expresses_openInt32 i.ip4Mask, expresses_openText i.ip6,
    expresses_openText i.ip6Mask, List.forall_mem_nil _⟩

theorem expresses_linkOptions {o : LinkOptions} (h : ∀ x ∈ o.floats, format.Rereads g x) :
    format.Expresses g (write o) := by
  have hfloat : ∀ x ∈ [o.bandwidth, o.burst, o.delay, o.jitter, o.dup, o.per, o.mburst, o.mer],
      ∀ d ∈ x.map write, format.Expresses g d :=
    fun x hx => expresses_openFloat fun y hy => h y (List.mem_flatMap.mpr ⟨x, hx, hy⟩)
  simp only [List.forall_mem_cons] at hfloat
  obtain ⟨hbandwidth, hburst, hdelay, hjitter, hdup, hper, hmburst, hmer, -⟩ := hfloat
  refine expresses_record (by simp only [fields, List.map_cons, List.map_nil]; decide) ?_
  simp only [fields, List.forall_mem_cons]
  exact ⟨hbandwidth, hburst, hdelay, hjitter, hdup, hper, hmburst, hmer,
    expresses_openText o.opaqueData, expresses_openInt32 o.key,
    expresses_given (expresses_int32 o.unidirectional), List.forall_mem_nil _⟩

theorem expresses_link {l : Link} (h : ∀ x ∈ l.floats, format.Rereads g x) :
    format.Expresses g (write l) := by
  have hinterface : ∀ i : Option Interface, ∀ d ∈ i.map write, format.Expresses g d :=
    fun i => expresses_open fun i _ => expresses_interface i
  have hoptions : ∀ d ∈ l.options.map write, format.Expresses g d := by
    refine expresses_open fun o ho => expresses_linkOptions fun x hx => h x ?_
    exact List.mem_flatMap.mpr ⟨o, Option.mem_toList.mpr ho, hx⟩
  refine expresses_record (by simp only [fields, List.map_cons, List.map_nil]; decide) ?_
  simp only [fields, List.forall_mem_cons]
  exact ⟨expresses_openInt32 l.nodeOne, expresses_openInt32 l.nodeTwo, hinterface l.interfaceOne,
    hinterface l.interfaceTwo, hoptions, expresses_given (expresses_text _),
    List.forall_mem_nil _⟩

theorem expresses_node {n : Node} (h : ∀ x ∈ n.floats, format.Rereads g x) :
    format.Expresses g (write n) := by
  have hposition : ∀ d ∈ n.position.map write, format.Expresses g d := by
    refine expresses_open fun p hp => expresses_position fun x hx => h x ?_
    exact List.mem_flatMap.mpr ⟨p, Option.mem_toList.mpr hp, hx⟩
  have hservices : ∀ d ∈ n.writtenServices, format.Expresses g d := by
    rw [Node.writtenServices]
    split
    case isTrue => exact fun d hd => absurd hd (Option.not_mem_none d)
    case isFalse => exact expresses_given (expresses_texts _)
  refine expresses_record (by simp only [fields, List.map_cons, List.map_nil]; decide) ?_
  simp only [fields, List.forall_mem_cons]
  exact ⟨expresses_openInt32 n.id, expresses_openText n.name, expresses_given (expresses_text _),
    hposition, hservices, expresses_openText n.emane, expresses_openText n.model,
    expresses_openText n.icon, List.forall_mem_nil _⟩

theorem expresses_hook (k : Hook) : format.Expresses g (write k) := by
  refine expresses_record (by simp only [fields, List.map_cons, List.map_nil]; decide) ?_
  simp only [fields, List.forall_mem_cons]
  exact ⟨expresses_given (expresses_text _), expresses_given (expresses_text _),
    expresses_given (expresses_text _), List.forall_mem_nil _⟩

theorem expresses_topology {t : Topology} (h : ∀ x ∈ t.floats, format.Rereads g x) :
    format.Expresses g (write t) := by
  obtain ⟨hnodes, hlinks⟩ := List.forall_mem_append.mp h
  have hnodes : format.Expresses g (write t.nodes) := expresses_records fun n hn =>
    expresses_node fun x hx => hnodes x (List.mem_flatMap.mpr ⟨n, hn, hx⟩)
  have hlinks : format.Expresses g (write t.links) := expresses_records fun l hl =>
    expresses_link fun x hx => hlinks x (List.mem_flatMap.mpr ⟨l, hl, hx⟩)
  have hhooks : format.Expresses g (write t.hooks) := expresses_records fun k _ => expresses_hook k
  refine expresses_record (by simp only [fields, List.map_cons, List.map_nil]; decide) ?_
  simp only [fields, List.forall_mem_cons]
  exact ⟨expresses_given hnodes, expresses_given hlinks, expresses_given hhooks,
    List.forall_mem_nil _⟩

end Topologies

end FileFormat

section Files

theorem FileSystem.write_eq_ok {fs : FileSystem} {name : String} (h : fs.hasPlaceFor name = true)
    (contents : Bytes) : fs.write name contents = .ok ⟨fs.files.insert name contents⟩ :=
  if_pos h

theorem FileSystem.read_insert (fs : FileSystem) (name : String) (contents : Bytes)
    (other : String) : FileSystem.read ⟨fs.files.insert name contents⟩ other =
      if other = name then .ok contents else fs.read other := by
  rw [FileSystem.read, SortedMap.get?_insert]
  by_cases hname : other = name
  · rw [if_pos hname, if_pos hname]
  · rw [if_neg hname, if_neg hname, FileSystem.read]

/-- A name that can be written stays so when another file is. -/
theorem FileSystem.hasPlaceFor_insert {fs : FileSystem} {name : String}
    (h : fs.hasPlaceFor name = true) (other : String) (contents : Bytes) :
    FileSystem.hasPlaceFor ⟨fs.files.insert other contents⟩ name = true := by
  rw [FileSystem.hasPlaceFor, Bool.and_eq_true, Bool.or_eq_true, List.any_eq_true] at h ⊢
  refine ⟨h.1, h.2.imp_right ?_⟩
  rintro ⟨_, hk, hdirectory⟩
  obtain ⟨⟨k, v⟩, he, rfl⟩ := List.mem_map.mp hk
  have hfound : (fs.files.insert other contents).get? k =
      some (if k = other then contents else v) := by
    rw [SortedMap.get?_insert, SortedMap.get?_eq_some_iff.mpr he]
    split
    · rfl
    · rfl
  exact ⟨k, List.mem_map.mpr ⟨_, SortedMap.get?_eq_some_iff.mp hfound, rfl⟩, hdirectory⟩

namespace Topology

variable {σ : Type} (daemon : Daemon σ)

/-- The computer after the topology was put into a file. -/
def stored (t : Topology) (path : String) (m : Machine σ) : Machine σ :=
  { m with files := ⟨m.files.files.insert path (.ofText ((FileFormat.ofPath path).render t))⟩ }

/-- The file at the path is what the topology is saved as there. -/
def IsAt (t : Topology) (path : String) (m : Machine σ) : Prop :=
  m.files.read path = .ok (.ofText ((FileFormat.ofPath path).render t))

theorem isAt_stored (t : Topology) (path : String) (m : Machine σ) :
    t.IsAt path (t.stored path m) := by
  rw [IsAt, stored, FileSystem.read_insert, if_pos rfl]

theorem IsAt.stored {t : Topology} {path : String} {m : Machine σ} (h : t.IsAt path m)
    (other : String) : t.IsAt path (t.stored other m) := by
  rw [IsAt, Topology.stored, FileSystem.read_insert]
  split
  case isTrue heq => rw [heq]
  case isFalse => exact h

theorem save_run {m : Machine σ} {path : String} (h : m.files.hasPlaceFor path = true)
    (t : Topology) :
    (t.save path).run.run (Machine.world daemon) m = (.ok (), t.stored path m) := by
  simp only [save, Workflow.writeFile, Program.perform, ExceptT.run_mk, Program.run_bind,
    Program.run, Machine.world, FileSystem.write_eq_ok h]
  rfl

theorem ofText_of_valid {format : FileFormat} {text : String} {t : Topology}
    (h : format.parse? text = some t) (hvalid : t.offence? = none) :
    ofText format text = .ok t := by
  rw [ofText_of_parse? h, validate_eq_ok_iff.mpr (offence?_eq_none_iff.mp hvalid)]
  rfl

theorem ofText_render {format : FileFormat} {t : Topology} (hvalid : t.offence? = none)
    (hkeeps : format.KeepsAll t.floats) : ofText format (format.render t) = .ok t := by
  have hparse := FileFormat.parse?_render (FileFormat.expresses_topology hkeeps.rereads)
  rw [bindFloats_some] at hparse
  exact ofText_of_valid hparse hvalid

/-- A file is loaded as what is read in its text. -/
theorem load_run_of_ofText {m : Machine σ} {path : String} {t u : Topology}
    (hfile : t.IsAt path m)
    (hread : ofText (FileFormat.ofPath path) ((FileFormat.ofPath path).render t) = .ok u) :
    (load path).run.run (Machine.world daemon) m = (.ok u, m) := by
  have hcontents : m.files.read path = .ok (.ofText ((FileFormat.ofPath path).render t)) := hfile
  have hanswer : Machine.world daemon (.readFile path) m = (m.files.read path, m) := rfl
  rw [hcontents] at hanswer
  rw [load_run_of_read hanswer (Bytes.toText?_ofText _), hread]
  rfl

theorem load_run {m : Machine σ} {path : String} {t : Topology} (hvalid : t.offence? = none)
    (hkeeps : (FileFormat.ofPath path).KeepsAll t.floats) (hfile : t.IsAt path m) :
    (load path).run.run (Machine.world daemon) m = (.ok t, m) :=
  load_run_of_ofText daemon hfile (ofText_render hvalid hkeeps)

end Topology

end Files

/-- A valid topology with finite numbers is loaded as it was saved, wherever a file can be written
and in whichever format. So its copies in both formats are loaded as equal topologies. -/
theorem saved_topology_loads {σ : Type} (daemon : Daemon σ) (t : Topology)
    (hvalid : t.offence? = none) (hfinite : ∀ x ∈ t.floats, x.isFinite = true) :
    (∀ (m : Machine σ) path, m.files.hasPlaceFor path = true →
      (∀ x ∈ t.floats, (FileFormat.ofPath path).Keeps x) →
      let again : WorkflowM Topology := do
        t.save path
        Topology.load path
      (again.run.run (Machine.world daemon) m).1 = .ok t) ∧
    (∀ (m : Machine σ) p q, m.files.hasPlaceFor p = true → m.files.hasPlaceFor q = true →
      (∀ x ∈ t.floats, (FileFormat.ofPath p).Keeps x ∧ (FileFormat.ofPath q).Keeps x) →
      let copies : WorkflowM (Topology × Topology) := do
        t.save p
        t.save q
        return (← Topology.load p, ← Topology.load q)
      (copies.run.run (Machine.world daemon) m).1 = .ok (t, t)) ∧
    ∀ path name, FileFormat.Names path name →
      (FileFormat.ofPath path = .json ↔ ∃ stem ext, stem ≠ [] ∧ name = stem ++ '.' :: ext ∧
        ext.map Char.toLower = "json".toList) := by
  refine ⟨?_, ?_, fun path name => FileFormat.ofPath_eq_json_iff⟩
  · intro m path hplace hkeeps
    have hall : (FileFormat.ofPath path).KeepsAll t.floats :=
      fun x hx => ⟨hfinite x hx, hkeeps x hx⟩
    dsimp only
    rw [Program.run_ok_bind (Topology.save_run daemon hplace t),
      Topology.load_run daemon hvalid hall (t.isAt_stored path m)]
  · intro m p q hp hq hkeeps
    have hallp : (FileFormat.ofPath p).KeepsAll t.floats :=
      fun x hx => ⟨hfinite x hx, (hkeeps x hx).1⟩
    have hallq : (FileFormat.ofPath q).KeepsAll t.floats :=
      fun x hx => ⟨hfinite x hx, (hkeeps x hx).2⟩
    have hq : (t.stored p m).files.hasPlaceFor q = true := FileSystem.hasPlaceFor_insert hq _ _
    dsimp only
    rw [Program.run_ok_bind (Topology.save_run daemon hp t),
      Program.run_ok_bind (Topology.save_run daemon hq t),
      Program.run_ok_bind (Topology.load_run daemon hvalid hallp ((t.isAt_stored p m).stored q)),
      Program.run_ok_bind (Topology.load_run daemon hvalid hallq (t.isAt_stored q _))]
    rfl

/-- Texts with quotes, backslashes, control characters and several lines, numbers with a fraction,
an exponent and a sign, and fields that are left out. -/
def denseTopology : Topology where
  nodes := [
    { id := some 1, name := some "\"n1\" 'east' \\ \u0007", services := .ofList ["b", "a\nb"],
      position := some { x := some ⟨0x3fb999999999999a⟩ } },
    { id := some (-2), kind := .wirelessLan, position := some {}, icon := some "" }]
  links := [
    { nodeOne := some 1, nodeTwo := some (-2), interfaceOne := some { ip6Mask := some "x" },
      options := some { delay := some ⟨0x444b1ae4d6e2ef50⟩, jitter := some ⟨0x8000000000000000⟩,
                        key := some (-2147483648), unidirectional := 1 } }]
  hooks := [⟨.runtime, "'''", "line\r\n\t\"\"\"λ"⟩]

/-- A computer with one file in a directory. -/
def directoryMachine : Machine Recording where
  daemon := {}
  files := ⟨.ofList [("net/readme", [])]⟩

theorem denseTopology_loads :
    denseTopology.offence? = none ∧ (∀ x ∈ denseTopology.floats, x.isFinite = true) ∧
    directoryMachine.files.hasPlaceFor "net/lab.Json" = true ∧
    directoryMachine.files.hasPlaceFor "lab.json.d" = true ∧
    FileFormat.ofPath "net/lab.Json" = .json ∧ FileFormat.ofPath "lab.json.d" = .toml ∧
    (∀ x ∈ denseTopology.floats, (FileFormat.ofPath "net/lab.Json").Keeps x ∧
      (FileFormat.ofPath "lab.json.d").Keeps x) ∧
    let copies : WorkflowM (Topology × Topology) := do
      denseTopology.save "net/lab.Json"
      denseTopology.save "lab.json.d"
      return (← Topology.load "net/lab.Json", ← Topology.load "lab.json.d")
    (copies.run.run (Machine.world Recording.reply) directoryMachine).1 =
      .ok (denseTopology, denseTopology) := by
  have hvalid : denseTopology.offence? = none := by decide +kernel
  have hfinite : ∀ x ∈ denseTopology.floats, x.isFinite = true := by decide +kernel
  have hjson : directoryMachine.files.hasPlaceFor "net/lab.Json" = true := by decide +kernel
  have htoml : directoryMachine.files.hasPlaceFor "lab.json.d" = true := by decide +kernel
  have hkeeps : ∀ x ∈ denseTopology.floats, (FileFormat.ofPath "net/lab.Json").Keeps x ∧
      (FileFormat.ofPath "lab.json.d").Keeps x := by decide +kernel
  refine ⟨hvalid, hfinite, hjson, htoml, by decide +kernel, by decide +kernel, hkeeps, ?_⟩
  exact (saved_topology_loads Recording.reply denseTopology hvalid hfinite).2.1
    directoryMachine "net/lab.Json" "lab.json.d" hjson htoml hkeeps

end EmuControl
