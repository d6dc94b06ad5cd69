import EmuControl.Daemon.Recording
import EmuControl.Proofs.DecimalInteger
import EmuControl.Proofs.Deed

/-!
# What makes a topology valid

`Topology.offence?` scans the nodes and then the links, and carries the ids that it has seen. Here
validity is said without a scan: the ids of the nodes are distinct, wireless networks have an id, and
every link joins two different nodes. The scan finds nothing exactly when these three hold.

What the scan finds otherwise is the first offence. Whether an item offends depends on the items
before it only, and so does the position that the offence names.

The offence is reported in words. `Offence.Reports` lists them; they hold the position and the id, and
no two offences are reported alike, so the report tells which offence came first. A file that holds
such a topology is refused with this report.
-/
namespace EmuControl

open EmuControl.Number

namespace Offence

/-- The words in which an offence is reported, with its position and the id in decimal. -/
inductive Reports : Offence → String → Prop
  | duplicateId (id : Int32) : Reports (.duplicateId id) ("duplicate node id " ++ toString id)
  | wlanWithoutId (position : Nat) :
      Reports (.wlanWithoutId position) ("WLAN node #" ++ toString position ++ " has no id")
  | openLink (position : Nat) :
      Reports (.openLink position) ("link #" ++ toString position ++ " must name both nodes")
  | selfLink (position : Nat) (id : Int32) :
      Reports (.selfLink position id)
        ("link #" ++ toString position ++ " connects node " ++ toString id ++ " to itself")

/-- Each offence is reported in one way. -/
theorem reports_iff {o : Offence} {reason : String} : o.Reports reason ↔ reason = o.message := by
  -- `message` is opened as a whole: its single equations are costly for the literals in them
  have hmessage : o.Reports o.message := by
    cases o <;>
      simp only [message.eq_def, writeNatural_eq_toString, writeInt32_eq_toString] <;>
      constructor
  constructor
  · intro h
    cases h <;> simp only [message.eq_def, writeNatural_eq_toString, writeInt32_eq_toString]
  · intro h
    rw [h]
    exact hmessage

/-- The parts of a report. A blank ends each position. -/
theorem toList_message (o : Offence) :
    o.message.toList = match o with
      | duplicateId id => "duplicate node id ".toList ++ (writeInt32 id).toList
      | wlanWithoutId position =>
        "WLAN node #".toList ++ ((writeNatural position).toList ++ ' ' :: "has no id".toList)
      | openLink position =>
        "link #".toList ++ ((writeNatural position).toList ++ ' ' :: "must name both nodes".toList)
      | selfLink position id =>
        "link #".toList ++ ((writeNatural position).toList ++
          ' ' :: ("connects node ".toList ++ ((writeInt32 id).toList ++ " to itself".toList))) := by
  cases o <;> simp only [message.eq_def, String.toList_append, List.append_assoc] <;> rfl

/-- The first letter tells a report on ids, one on wireless networks and one on links apart. -/
theorem head?_message (o : Offence) :
    o.message.toList.head? = match o with
      | duplicateId _ => some 'd'
      | wlanWithoutId _ => some 'W'
      | openLink _ | selfLink _ _ => some 'l' := by
  rw [toList_message]
  cases o <;> rfl

/-- No two offences are reported alike. -/
theorem message_injective : Function.Injective message := by
  intro o o' h
  have hhead := congrArg (fun s => s.toList.head?) h
  have htext := congrArg String.toList h
  simp only [head?_message] at hhead
  simp only [toList_message] at htext
  cases o with
  | duplicateId id =>
    cases o' with
    | duplicateId id' =>
      have hid := String.toList_inj.mp (List.append_cancel_left htext)
      rw [writeInt32_injective hid]
    | _ => cases hhead
  | wlanWithoutId position =>
    cases o' with
    | wlanWithoutId position' =>
      have hposition := (writeNatural_append_inj rfl (List.append_cancel_left htext)).1
      rw [hposition]
    | _ => cases hhead
  | openLink position =>
    cases o' with
    | openLink position' =>
      have hposition := (writeNatural_append_inj rfl (List.append_cancel_left htext)).1
      rw [hposition]
    | selfLink position' id' =>
      have hrest := (writeNatural_append_inj rfl (List.append_cancel_left htext)).2
      cases congrArg List.head? hrest
    | _ => cases hhead
  | selfLink position id =>
    cases o' with
    | openLink position' =>
      have hrest := (writeNatural_append_inj rfl (List.append_cancel_left htext)).2
      cases congrArg List.head? hrest
    | selfLink position' id' =>
      obtain ⟨hposition, hrest⟩ := writeNatural_append_inj rfl (List.append_cancel_left htext)
      have hid := List.append_cancel_right (List.append_cancel_left hrest)
      rw [hposition, writeInt32_injective (String.toList_inj.mp hid)]
    | _ => cases hhead

end Offence

end EmuControl

namespace EmuControl.Topology

/-- The topology can be started as far as ids and ends of links go. -/
structure WellFormed (t : Topology) : Prop where
  distinct : (t.nodes.filterMap Node.id).Nodup
  identified : ∀ n ∈ t.nodes, n.kind = .wirelessLan → n.id ≠ none
  joined : ∀ l ∈ t.links, ∃ one two, l.nodeOne = some one ∧ l.nodeTwo = some two ∧ one ≠ two

/-- What is wrong with a node behind the given nodes. -/
inductive NodeOffends (before : List Node) (n : Node) : Offence → Prop
  | duplicate {id : Int32} : n.id = some id → some id ∈ before.map Node.id →
      NodeOffends before n (.duplicateId id)
  | wlan : n.kind = .wirelessLan → n.id = none →
      NodeOffends before n (.wlanWithoutId (before.length + 1))

/-- What is wrong with a link behind the given links. -/
inductive LinkOffends (before : List Link) (l : Link) : Offence → Prop
  | openEnd : l.nodeOne = none ∨ l.nodeTwo = none →
      LinkOffends before l (.openLink (before.length + 1))
  | loop {id : Int32} : l.nodeOne = some id → l.nodeTwo = some id →
      LinkOffends before l (.selfLink (before.length + 1) id)

/-- The offence of the first item that offends behind the items before it. -/
def FirstOffence {α : Type} (Offends : List α → α → Offence → Prop) (items : List α)
    (o : Offence) : Prop :=
  ∃ before item rest, items = before ++ item :: rest ∧ Offends before item o ∧
    ∀ earlier other between, before = earlier ++ other :: between →
      ∀ o', ¬ Offends earlier other o'

theorem firstOffence_nil {α : Type} {Offends : List α → α → Offence → Prop} {o : Offence} :
    ¬ FirstOffence Offends [] o := by
  intro h
  obtain ⟨before, item, rest, hsplit, -⟩ := h
  cases before <;> cases hsplit

/-- One step of a scan: an item that does not offend is only one more of those before the rest. -/
theorem firstOffence_cons {α : Type} {Offends : List α → α → Offence → Prop} {o : Offence} {item : α}
    {rest : List α} :
    FirstOffence Offends (item :: rest) o ↔
      Offends [] item o ∨ (∀ o', ¬ Offends [] item o') ∧
        FirstOffence (fun before => Offends (item :: before)) rest o := by
  constructor
  · intro h
    obtain ⟨before, bad, after, hsplit, hbad, hfirst⟩ := h
    cases before with
    | nil =>
      cases hsplit
      exact .inl hbad
    | cons b before =>
      cases hsplit
      refine .inr ⟨hfirst [] item before rfl, before, bad, after, rfl, hbad, ?_⟩
      intro earlier other between hbefore
      apply hfirst (item :: earlier) other between
      rw [hbefore, List.cons_append]
  · intro h
    rcases h with hbad | ⟨hgood, before, bad, after, hsplit, hbad, hfirst⟩
    · refine ⟨[], item, rest, rfl, hbad, ?_⟩
      intro earlier other between hbefore
      cases earlier <;> cases hbefore
    · refine ⟨item :: before, bad, after, by rw [hsplit, List.cons_append], hbad, ?_⟩
      intro earlier other between hbefore
      cases earlier with
      | nil =>
        cases hbefore
        exact hgood
      | cons e earlier =>
        cases hbefore
        exact hfirst earlier other between rfl

section Nodes

variable {seen : List Int32} {position : Nat} {nodes : List Node}

theorem nodeOffence?_eq_none_iff :
    nodeOffence? seen position nodes = none ↔
      (nodes.filterMap Node.id).Nodup ∧ (∀ id ∈ nodes.filterMap Node.id, id ∉ seen) ∧
        ∀ n ∈ nodes, n.kind = .wirelessLan → n.id ≠ none := by
  induction nodes generalizing seen position with
  | nil => simp [nodeOffence?]
  | cons n rest ih =>
    unfold nodeOffence?
    cases hid : n.id with
    | some id =>
      simp only [List.filterMap_cons, hid, List.nodup_cons, List.forall_mem_cons, ne_eq,
        Option.some_ne_none, not_false_eq_true, implies_true, true_and]
      split
      · rename_i hseen
        simp [hseen]
      · rename_i hseen
        rw [ih]
        simp only [List.mem_cons, not_or, hseen, not_false_eq_true, true_and]
        constructor
        · intro h
          have hfresh : id ∉ rest.filterMap Node.id := fun hmem => (h.2.1 id hmem).1 rfl
          exact ⟨⟨hfresh, h.1⟩, fun i hi => (h.2.1 i hi).2, h.2.2⟩
        · intro h
          refine ⟨h.1.2, fun i hi => ⟨?_, h.2.1 i hi⟩, h.2.2⟩
          intro hsame
          exact h.1.1 (hsame ▸ hi)
    | none =>
      simp only [List.filterMap_cons, hid, List.forall_mem_cons, ne_eq, not_true_eq_false,
        imp_false, Node.isWlan, decide_eq_true_eq]
      split
      · rename_i hwlan
        simp [hwlan]
      · rename_i hplain
        rw [ih]
        simp [hplain]

theorem nodeOffends_iff_of_id {before : List Node} {n : Node} {id : Int32} {o : Offence}
    (hid : n.id = some id) :
    NodeOffends before n o ↔ some id ∈ before.map Node.id ∧ o = .duplicateId id := by
  constructor
  · intro h
    cases h with
    | duplicate hsame htaken =>
      cases hid.symm.trans hsame
      exact ⟨htaken, rfl⟩
    | wlan _ hnone => cases hid.symm.trans hnone
  · intro h
    rw [h.2]
    exact .duplicate hid h.1

theorem nodeOffends_iff_of_no_id {before : List Node} {n : Node} {o : Offence} (hid : n.id = none) :
    NodeOffends before n o ↔
      n.kind = .wirelessLan ∧ o = .wlanWithoutId (before.length + 1) := by
  constructor
  · intro h
    cases h with
    | duplicate hsome _ => cases hid.symm.trans hsome
    | wlan hwlan _ => exact ⟨hwlan, rfl⟩
  · intro h
    rw [h.2]
    exact .wlan h.1 hid

/-- With the ids of the nodes before as those that were seen, the scan finds the first offence. -/
theorem nodeOffence?_eq_some_iff (before : List Node) {o : Offence}
    (hseen : ∀ id, id ∈ seen ↔ some id ∈ before.map Node.id) :
    nodeOffence? seen (before.length + 1) nodes = some o ↔
      FirstOffence (fun between => NodeOffends (before ++ between)) nodes o := by
  induction nodes generalizing seen before with
  | nil => simp [nodeOffence?, firstOffence_nil]
  | cons n rest ih =>
    have hbehind : (fun between => NodeOffends (before ++ n :: between)) =
        fun between => NodeOffends (before ++ [n] ++ between) := by simp
    have hlength : before.length + 1 = (before ++ [n]).length := by simp
    unfold nodeOffence?
    rw [firstOffence_cons, hbehind, List.append_nil]
    cases hid : n.id with
    | some id =>
      simp only [nodeOffends_iff_of_id hid, ← hseen]
      split
      · rename_i htaken
        simp [htaken, eq_comm]
      · rename_i hfresh
        have hnext : ∀ i, i ∈ id :: seen ↔ some i ∈ (before ++ [n]).map Node.id := by
          simp [hseen, hid, or_comm, eq_comm]
        rw [hlength, ih (before ++ [n]) hnext]
        simp [hfresh]
    | none =>
      simp only [nodeOffends_iff_of_no_id hid, Node.isWlan, decide_eq_true_eq]
      split
      · rename_i hwlan
        simp [hwlan, eq_comm]
      · rename_i hplain
        have hnext : ∀ i, i ∈ seen ↔ some i ∈ (before ++ [n]).map Node.id := by
          simp [hseen, hid]
        rw [hlength, ih (before ++ [n]) hnext]
        simp [hplain]

end Nodes

section Links

variable {position : Nat} {links : List Link}

theorem linkOffence?_eq_none_iff :
    linkOffence? position links = none ↔
      ∀ l ∈ links, ∃ one two, l.nodeOne = some one ∧ l.nodeTwo = some two ∧ one ≠ two := by
  induction links generalizing position with
  | nil => simp [linkOffence?]
  | cons l rest ih =>
    unfold linkOffence?
    rw [List.forall_mem_cons]
    split
    · rename_i one two hone htwo
      split
      · rename_i hloop
        simp [hone, htwo, hloop]
      · rename_i hdistinct
        rw [ih]
        simp [hone, htwo, hdistinct]
    · rename_i hopen
      constructor
      · intro h
        cases h
      · intro h
        obtain ⟨⟨one, two, hone, htwo, -⟩, -⟩ := h
        exact absurd htwo (hopen one two hone)

theorem linkOffends_iff_of_ends {before : List Link} {l : Link} {one two : Int32} {o : Offence}
    (hone : l.nodeOne = some one) (htwo : l.nodeTwo = some two) :
    LinkOffends before l o ↔ one = two ∧ o = .selfLink (before.length + 1) one := by
  constructor
  · intro h
    cases h with
    | openEnd hopen => simp [hone, htwo] at hopen
    | loop hone' htwo' =>
      cases hone.symm.trans hone'
      cases htwo.symm.trans htwo'
      exact ⟨rfl, rfl⟩
  · intro h
    rw [h.2]
    exact .loop hone (h.1 ▸ htwo)

theorem linkOffends_iff_of_open {before : List Link} {l : Link} {o : Offence}
    (hopen : ∀ one two, l.nodeOne = some one → l.nodeTwo = some two → False) :
    LinkOffends before l o ↔ o = .openLink (before.length + 1) := by
  constructor
  · intro h
    cases h with
    | openEnd _ => rfl
    | loop hone htwo => exact absurd htwo (hopen _ _ hone)
  · intro h
    rw [h]
    apply LinkOffends.openEnd
    cases hone : l.nodeOne with
    | none => exact .inl rfl
    | some one => exact .inr (Option.eq_none_iff_forall_ne_some.mpr fun two => hopen one two hone)

theorem linkOffence?_eq_some_iff (before : List Link) {o : Offence} :
    linkOffence? (before.length + 1) links = some o ↔
      FirstOffence (fun between => LinkOffends (before ++ between)) links o := by
  induction links generalizing before with
  | nil => simp [linkOffence?, firstOffence_nil]
  | cons l rest ih =>
    have hbehind : (fun between => LinkOffends (before ++ l :: between)) =
        fun between => LinkOffends (before ++ [l] ++ between) := by simp
    have hlength : before.length + 1 = (before ++ [l]).length := by simp
    unfold linkOffence?
    rw [firstOffence_cons, hbehind, List.append_nil]
    split
    · rename_i one two hone htwo
      simp only [linkOffends_iff_of_ends hone htwo]
      split
      · rename_i hloop
        simp [hloop, eq_comm]
      · rename_i hdistinct
        rw [hlength, ih (before ++ [l])]
        simp [hdistinct]
    · rename_i hopen
      simp only [linkOffends_iff_of_open hopen]
      simp [eq_comm]

end Links

theorem offence?_eq_none_iff {t : Topology} : t.offence? = none ↔ t.WellFormed := by
  rw [offence?, Option.or_eq_none_iff, nodeOffence?_eq_none_iff, linkOffence?_eq_none_iff]
  constructor
  · intro h
    exact ⟨h.1.1, h.1.2.2, h.2⟩
  · intro h
    exact ⟨⟨h.distinct, by simp, h.identified⟩, h.joined⟩

/-- The first offence of a topology, that of a node before that of any link. -/
def OffendsFirst (t : Topology) (o : Offence) : Prop :=
  FirstOffence NodeOffends t.nodes o ∨
    (∀ o', ¬ FirstOffence NodeOffends t.nodes o') ∧ FirstOffence LinkOffends t.links o

theorem offence?_eq_some_iff {t : Topology} {o : Offence} :
    t.offence? = some o ↔ t.OffendsFirst o := by
  have hnodes : ∀ o', nodeOffence? [] 1 t.nodes = some o' ↔ FirstOffence NodeOffends t.nodes o' :=
    fun o' => nodeOffence?_eq_some_iff [] (by simp)
  have hlinks : linkOffence? 1 t.links = some o ↔ FirstOffence LinkOffends t.links o :=
    linkOffence?_eq_some_iff []
  simp only [OffendsFirst, ← hnodes, ← hlinks, offence?, Option.or_eq_some_iff,
    Option.eq_none_iff_forall_ne_some, ne_eq]

theorem validate_eq_ok_iff {t : Topology} : t.validate = .ok () ↔ t.WellFormed := by
  rw [← offence?_eq_none_iff, validate]
  cases t.offence? <;> simp

theorem validate_eq_error_iff {t : Topology} {reason : String} :
    t.validate = .error reason ↔ ∃ o, t.OffendsFirst o ∧ o.Reports reason := by
  simp only [← offence?_eq_some_iff, Offence.reports_iff]
  rw [validate]
  cases t.offence? <;> simp [eq_comm]

section Files

variable {format : FileFormat} {path text : String} {t : Topology}

theorem ofText_of_parse? (h : format.parse? text = some t) :
    ofText format text = t.validate.map fun _ => t := by
  rw [ofText, h]

theorem offence?_of_ofText (h : ofText format text = .ok t) : t.offence? = none := by
  rw [offence?_eq_none_iff, ← validate_eq_ok_iff]
  unfold ofText at h
  split at h
  · cases h
  · rename_i parsed _
    cases hvalid : parsed.validate with
    | error reason =>
      rw [hvalid] at h
      cases h
    | ok _ =>
      rw [hvalid] at h
      cases h
      exact hvalid

theorem offence?_of_load {turns : List Turn} (h : (load path).run.Yields turns (.ok t)) :
    t.offence? = none := by
  unfold load at h
  rcases Program.yields_except_bind.mp h with ⟨e, -, hend⟩ | ⟨_, text, _, -, hend, -⟩
  · cases hend
  · split at hend
    · rename_i loaded htext
      cases hend.2
      exact offence?_of_ofText htext
    · cases hend.2

variable {σ : Type} {world : World σ} {s s' : σ} {bytes : Bytes}

theorem readTextFile_run (hread : world (.readFile path) s = (.ok bytes, s'))
    (htext : bytes.toText? = some text) :
    (Workflow.readTextFile path).run.run world s = (.ok text, s') := by
  have hbytes : (Workflow.readFile path).run.run world s = (.ok bytes, s') := by
    rw [Workflow.readFile_run, hread]
    rfl
  rw [Workflow.readTextFile, Program.run_ok_bind hbytes, htext]
  rfl

/-- A file is loaded as what its text is. -/
theorem load_run_of_read (hread : world (.readFile path) s = (.ok bytes, s'))
    (htext : bytes.toText? = some text) :
    (load path).run.run world s =
      ((ofText (.ofPath path) text).mapError (.invalidFile path), s') := by
  rw [load, Program.run_ok_bind (readTextFile_run hread htext)]
  cases ofText (.ofPath path) text <;> rfl

/-- A file that holds a topology is loaded as what its validation makes of it. -/
theorem load_of_parse? (hread : (world (.readFile path) s).1 = .ok bytes)
    (htext : bytes.toText? = some text) (hparse : (FileFormat.ofPath path).parse? text = some t) :
    ((load path).run.run world s).1 =
      (t.validate.map fun _ => t).mapError (.invalidFile path) := by
  have hanswer : world (.readFile path) s = (.ok bytes, (world (.readFile path) s).2) :=
    Prod.ext hread rfl
  rw [load_run_of_read hanswer htext, ofText_of_parse? hparse]

theorem load_eq_ok_iff (hread : (world (.readFile path) s).1 = .ok bytes)
    (htext : bytes.toText? = some text) (hparse : (FileFormat.ofPath path).parse? text = some t) :
    ((load path).run.run world s).1 = .ok t ↔ t.WellFormed := by
  rw [load_of_parse? hread htext hparse, ← validate_eq_ok_iff]
  cases t.validate <;> simp [Except.map, Except.mapError]

theorem load_eq_error_iff (hread : (world (.readFile path) s).1 = .ok bytes)
    (htext : bytes.toText? = some text) (hparse : (FileFormat.ofPath path).parse? text = some t)
    {e : WorkflowError} :
    ((load path).run.run world s).1 = .error e ↔
      ∃ o reason, t.OffendsFirst o ∧ o.Reports reason ∧ e = .invalidFile path reason := by
  have hreason : (∃ o reason, t.OffendsFirst o ∧ o.Reports reason ∧ e = .invalidFile path reason) ↔
      ∃ reason, t.validate = .error reason ∧ e = .invalidFile path reason := by
    simp only [validate_eq_error_iff]
    grind
  rw [load_of_parse? hread htext hparse, hreason]
  cases t.validate <;> simp [Except.map, Except.mapError, eq_comm]

end Files

end EmuControl.Topology

namespace EmuControl

open EmuControl.Topology

/-- A topology is accepted exactly when it is well formed. What is reported otherwise is its first
offence, that of a node before that of any link, with its position and the id: no two offences are
reported alike. Whatever the files are, only well-formed topologies are loaded, and a file that holds
another one is refused with the report. -/
theorem validation_exact :
    (∀ t : Topology,
      (t.validate = .ok () ↔ t.WellFormed) ∧
      (∀ o, t.offence? = some o ↔ t.OffendsFirst o) ∧
      ∀ reason, t.validate = .error reason ↔ ∃ o, t.OffendsFirst o ∧ o.Reports reason) ∧
    (∀ o o' reason, Offence.Reports o reason → Offence.Reports o' reason → o = o') ∧
    ∀ {σ : Type} (world : World σ) (path : String) (s : σ),
      (∀ t, ((Topology.load path).run.run world s).1 = .ok t → t.WellFormed) ∧
      ∀ bytes text t, (world (.readFile path) s).1 = .ok bytes → bytes.toText? = some text →
        (FileFormat.ofPath path).parse? text = some t →
        (((Topology.load path).run.run world s).1 = .ok t ↔ t.WellFormed) ∧
        ∀ e, ((Topology.load path).run.run world s).1 = .error e ↔
          ∃ o reason, t.OffendsFirst o ∧ o.Reports reason ∧ e = .invalidFile path reason := by
  refine ⟨fun t => ⟨validate_eq_ok_iff, fun o => offence?_eq_some_iff,
    fun reason => validate_eq_error_iff⟩, ?_, fun world path s => ⟨?_, ?_⟩⟩
  · intro o o' reason h h'
    apply Offence.message_injective
    rw [← Offence.reports_iff.mp h, ← Offence.reports_iff.mp h']
  · intro t hload
    have h := (Topology.load path).run.yields_run world s
    rw [hload] at h
    exact offence?_eq_none_iff.mp (offence?_of_load h)
  · intro bytes text t hread htext hparse
    exact ⟨load_eq_ok_iff hread htext hparse, fun e => load_eq_error_iff hread htext hparse⟩

/-- A topology with a wireless network, a node without an id and a link that leads out of it. -/
def looseEnded : Topology where
  nodes := [{ id := some 2, kind := .wirelessLan }, {}]
  links := [{ nodeOne := some 2, nodeTwo := some 7 }]

/-- A topology whose second link leads back to where it comes from, and whose third has no end. -/
def looped : Topology where
  nodes := [{ id := some (-4) }]
  links := [{ nodeOne := some (-4), nodeTwo := some 7 },
    { nodeOne := some (-4), nodeTwo := some (-4) }, {}]

def loopedText : String :=
  "[[nodes]]\nid = -4\n[[links]]\nnode_one = -4\nnode_two = 7\n" ++
  "[[links]]\nnode_one = -4\nnode_two = -4\n[[links]]"

/-- A computer that has both topologies in files. -/
def topologyMachine : Machine Recording where
  daemon := {}
  files := ⟨.ofList [
    ("lab.toml", .ofText
      "[[nodes]]\nid = 2\ntype = 'wireless_lan'\n[[nodes]]\n[[links]]\nnode_one = 2\nnode_two = 7"),
    ("loop.toml", .ofText loopedText)]⟩

theorem looped_refused :
    ((Topology.load "lab.toml").run.run (Machine.world Recording.reply) topologyMachine).1 =
        .ok looseEnded ∧
      looseEnded.WellFormed ∧
    topologyMachine.files.read "loop.toml" = .ok (.ofText loopedText) ∧
      (FileFormat.ofPath "loop.toml").parse? loopedText = some looped ∧
      looped.OffendsFirst (.selfLink 2 (-4)) ∧
      ((Topology.load "loop.toml").run.run (Machine.world Recording.reply) topologyMachine).1 =
        .error (.invalidFile "loop.toml" "link #2 connects node -4 to itself") := by
  have hload : ((Topology.load "lab.toml").run.run (Machine.world Recording.reply)
      topologyMachine).1 = .ok looseEnded := by decide +kernel
  have hread : topologyMachine.files.read "loop.toml" = .ok (.ofText loopedText) := by
    decide +kernel
  have hparse : (FileFormat.ofPath "loop.toml").parse? loopedText = some looped := by
    decide +kernel
  have hreason : looped.validate = .error "link #2 connects node -4 to itself" := by decide +kernel
  have hoffence : looped.offence? = some (.selfLink 2 (-4)) := by decide +kernel
  obtain ⟨htopology, -, hfiles⟩ := validation_exact
  obtain ⟨-, hfirst, hreport⟩ := htopology looped
  obtain ⟨o, ho, hreports⟩ := (hreport _).mp hreason
  refine ⟨hload, (hfiles _ _ _).1 _ hload, hread, hparse, (hfirst _).mp hoffence, ?_⟩
  apply ((hfiles _ _ _).2 _ _ _ hread (Bytes.toText?_ofText _) hparse).2 _ |>.mpr
  exact ⟨o, _, ho, hreports, rfl⟩

end EmuControl
