import EmuControl.Proofs.Operation
import EmuControl.Proofs.SessionSnapshot
import EmuControl.Proofs.SortedLookup

/-!
# Reading collections

The sessions of a daemon, the hooks of a session and the mobility of its nodes are each read with
one call. The response is mapped item by item, and what comes of it is the whole collection or an
error, never a part. `ReadsAll` says this of a list, whose items are taken in their order, and
`ReadsEach` of a map, whose entries are taken from the smallest id up.
-/
namespace EmuControl

open Wire

variable {α β κ ν μ : Type}

/-- The outcome of reading every item of a list. -/
structure ReadsAll (read : α → Mapped β) (items : List α)
    (result : Except ConnectError (List β)) : Prop where
  ok_iff : (∃ values, result = .ok values) ↔ ∀ item ∈ items, ∃ value, read item = .ok value
  /-- There is one value for each item, in the order of the items. -/
  values_iff : ∀ values, result = .ok values ↔
    List.Forall₂ (fun item value => read item = .ok value) items values
  /-- An error is about the first item that cannot be read. -/
  error_iff : ∀ e, result = .error e ↔ ∃ item cause,
    Foremost (fun earlier => ∃ value, read earlier = .ok value) items item ∧
      read item = .error cause ∧ e = .mapping cause

/-- The outcome of reading what each node of a map has. -/
structure ReadsEach (read : ν → Mapped μ) (items : SortedMap Int32 ν)
    (result : Except ConnectError (SortedMap Int32 μ)) : Prop where
  ok_iff : (∃ values, result = .ok values) ↔
    ∀ id item, items.get? id = some item → ∃ value, read item = .ok value
  keys_eq : ∀ values, result = .ok values → values.keys = items.keys
  get?_eq : ∀ values, result = .ok values →
    ∀ id, (values.get? id).map Except.ok = (items.get? id).map read
  /-- An error is about the smallest id whose item cannot be read. -/
  error_iff : ∀ e, result = .error e ↔ ∃ id item cause,
    items.get? id = some item ∧ read item = .error cause ∧ e = .mapping cause ∧
      ∀ id' item', items.get? id' = some item' → id' < id → ∃ value, read item' = .ok value

namespace Mapped

theorem mapError_eq_ok_iff {m : Mapped α} {a : α} :
    m.mapError ConnectError.mapping = .ok a ↔ m = .ok a := by
  cases m <;> simp [Except.mapError]

theorem mapError_eq_error_iff {m : Mapped α} {e : ConnectError} :
    m.mapError ConnectError.mapping = .error e ↔
      ∃ cause, m = .error cause ∧ e = .mapping cause := by
  cases m <;> simp [Except.mapError, eq_comm]

theorem map_eq_error_iff {m : Mapped α} {f : α → β} {cause : MappingError} :
    m.map f = .error cause ↔ m = .error cause := by
  cases m <;> simp [Except.map]

theorem exists_map_iff {m : Mapped α} {f : α → β} : (∃ b, m.map f = .ok b) ↔ ∃ a, m = .ok a := by
  cases m <;> simp [Except.map]

theorem readsAll_mapM (read : α → Mapped β) (items : List α) :
    ReadsAll read items ((items.mapM read).mapError .mapping) where
  ok_iff := by simp only [mapError_eq_ok_iff, exists_mapM_iff]
  values_iff values := by rw [mapError_eq_ok_iff, mapM_eq_ok_iff]
  error_iff e := by
    simp only [mapError_eq_error_iff, mapM_eq_error_iff]
    constructor
    · intro h
      obtain ⟨cause, ⟨item, hfirst, hitem⟩, he⟩ := h
      exact ⟨item, cause, hfirst, hitem, he⟩
    · intro h
      obtain ⟨item, cause, hfirst, hitem, he⟩ := h
      exact ⟨cause, ⟨item, hfirst, hitem⟩, he⟩

/-- Reads the value of an entry and keeps its key. -/
def entry (read : ν → Mapped μ) (e : κ × ν) : Mapped (κ × μ) :=
  (read e.2).map (Prod.mk e.1)

variable {read : ν → Mapped μ}

theorem entry_eq_ok_iff {e : κ × ν} {e' : κ × μ} :
    entry read e = .ok e' ↔ e'.1 = e.1 ∧ read e.2 = .ok e'.2 := by
  obtain ⟨k', v'⟩ := e'
  unfold entry
  cases read e.2 <;> simp [Except.map, eq_comm]

theorem exists_entry_iff {e : κ × ν} :
    (∃ e', entry read e = .ok e') ↔ ∃ value, read e.2 = .ok value :=
  exists_map_iff

theorem entry_eq_error_iff {e : κ × ν} {cause : MappingError} :
    entry read e = .error cause ↔ read e.2 = .error cause :=
  map_eq_error_iff

theorem keys_of_forall₂_entry {es : List (κ × ν)} {es' : List (κ × μ)}
    (h : List.Forall₂ (fun e e' => entry read e = .ok e') es es') :
    es'.map (·.1) = es.map (·.1) := by
  induction h with
  | nil => rfl
  | cons hentry _ ih => rw [List.map_cons, List.map_cons, ih, (entry_eq_ok_iff.mp hentry).1]

theorem lookup_of_forall₂_entry [Ord κ] [Std.LawfulEqOrd κ] {es : List (κ × ν)}
    {es' : List (κ × μ)} (h : List.Forall₂ (fun e e' => entry read e = .ok e') es es') (k : κ) :
    (SortedMap.lookup k es').map Except.ok = (SortedMap.lookup k es).map read := by
  classical
  induction h with
  | nil => rfl
  | cons hentry _ ih =>
    obtain ⟨hkey, hvalue⟩ := entry_eq_ok_iff.mp hentry
    rw [SortedMap.lookup_cons, SortedMap.lookup_cons, hkey]
    split
    · exact congrArg some hvalue.symm
    · exact ih

section Ordered

open SortedMap

variable [Ord κ] [Std.TransOrd κ] [Std.LawfulEqOrd κ]

/-- Entries that are read and put in one by one may as well be put in when all have been read. -/
theorem foldlM_insert_eq_mapM (read : ν → Mapped μ) (es : List (κ × ν)) (m : SortedMap κ μ) :
    es.foldlM (fun m e => do
      let value ← read e.2
      return m.insert e.1 value) m = (es.mapM (entry read)).map m.insertAll := by
  induction es generalizing m with
  | nil => rfl
  | cons e es ih =>
    rw [List.foldlM_cons, List.mapM_cons, entry]
    cases read e.2 with
    | error cause => rfl
    | ok value =>
      change es.foldlM _ (m.insert e.1 value) = _
      rw [ih]
      cases es.mapM (entry read) <;> rfl

/-- A map that is read has the keys of the one that it is read from, so its entries are in order
before they are put in. -/
theorem insertAll_mapM_eq_ok_iff {items : SortedMap κ ν} {values : SortedMap κ μ} :
    (items.entries.mapM (entry read)).map empty.insertAll = .ok values ↔
      List.Forall₂ (fun e e' => entry read e = .ok e') items.entries values.entries := by
  rw [← mapM_eq_ok_iff]
  constructor
  · intro h
    cases hread : items.entries.mapM (entry read) with
    | error cause =>
      rw [hread] at h
      cases h
    | ok es =>
      rw [hread] at h
      cases h
      have hkeys : (es.map (·.1)).Pairwise fun a b => compare a b = .lt := by
        rw [keys_of_forall₂_entry (mapM_eq_ok_iff.mp hread)]
        exact List.pairwise_map.mpr items.sorted
      have hentries : (empty.insertAll es).entries = es :=
        entries_insertAll (List.pairwise_map.mp hkeys)
      rw [hentries]
  · intro h
    rw [h]
    exact congrArg Except.ok (ofList_entries values)

end Ordered

theorem readsEach_mapM (read : ν → Mapped μ) (items : SortedMap Int32 ν) :
    ReadsEach read items
      (((items.entries.mapM (entry read)).map SortedMap.empty.insertAll).mapError .mapping) := by
  constructor
  case ok_iff =>
    simp only [mapError_eq_ok_iff, exists_map_iff, exists_mapM_iff, exists_entry_iff,
      SortedMap.get?_eq_some_iff, Prod.forall]
  case keys_eq =>
    intro values h
    exact keys_of_forall₂_entry (insertAll_mapM_eq_ok_iff.mp (mapError_eq_ok_iff.mp h))
  case get?_eq =>
    intro values h
    exact lookup_of_forall₂_entry (insertAll_mapM_eq_ok_iff.mp (mapError_eq_ok_iff.mp h))
  case error_iff =>
    intro e
    simp only [mapError_eq_error_iff, map_eq_error_iff, mapM_eq_error_iff, entry_eq_error_iff,
      exists_entry_iff, SortedMap.foremost_entries_iff, SortedMap.get?_eq_some_iff,
      Std.compare_eq_lt]
    constructor
    · intro h
      obtain ⟨cause, ⟨⟨id, item⟩, ⟨hmem, hleast⟩, hitem⟩, he⟩ := h
      exact ⟨id, item, cause, hmem, hitem, he, fun id' item' => hleast (id', item')⟩
    · intro h
      obtain ⟨id, item, cause, hmem, hitem, he, hleast⟩ := h
      exact ⟨cause, ⟨(id, item), ⟨hmem, fun e' => hleast e'.1 e'.2⟩, hitem⟩, he⟩

end Mapped

namespace Client

/-- The operation makes one call. It fails with the call, and `outcome` says what comes of a
response. -/
def AsksOnce (op : ClientM α) (m : Method) (r : m.Request)
    (outcome : m.Response → Except ConnectError α → Prop) : Prop :=
  ∀ (σ : Type) (world : World σ) (s : σ),
    let t := op.run.trace world s
    let result := (op.run.run world s).1
    (∃ e, t = [⟨⟨m, r⟩, .error e⟩] ∧ result = .error (.ofApi e)) ∨
    ∃ response, t = [⟨⟨m, r⟩, .ok response⟩] ∧ outcome response result

theorem asksOnce_request {m : Method} {r : m.Request} {k : m.Response → ClientM α}
    {outcome : m.Response → Except ConnectError α → Prop} (read : m.Response → Mapped α)
    (hk : ∀ response t x, (k response).run.Yields t x →
      t = [] ∧ x = (read response).mapError .mapping)
    (houtcome : ∀ response, outcome response ((read response).mapError .mapping)) :
    AsksOnce (request m r >>= k) m r outcome := by
  intro σ world s t result
  have hrun : (request m r >>= k).run.Yields t result := Program.yields_run world _ s
  rcases request_bind_yields.mp hrun with ⟨e, ht, hresult⟩ | ⟨response, u, hu, ht⟩
  · exact .inl ⟨e, ht, hresult⟩
  · obtain ⟨rfl, hresult⟩ := hk response u result hu
    refine .inr ⟨response, ht, ?_⟩
    rw [hresult]
    exact houtcome response

theorem asksOnce_listSessions :
    AsksOnce listSessions .getSessions {} fun response =>
      ReadsAll SessionSummary.ofWire response.sessions := by
  refine asksOnce_request (fun response => response.sessions.mapM SessionSummary.ofWire) ?_
    fun response => Mapped.readsAll_mapM _ response.sessions
  intro response t x h
  exact mapped_yields.mp (note_bind_yields.mp h)

theorem asksOnce_getHooks (ctx : SessionContext) :
    AsksOnce (getHooks ctx) .getHooks { sessionId := ctx.id } fun response =>
      ReadsAll Hook.ofWire response.hooks :=
  asksOnce_request (fun response => response.hooks.mapM Hook.ofWire)
    (fun _ _ _ h => mapped_yields.mp h) fun response => Mapped.readsAll_mapM _ response.hooks

theorem asksOnce_getMobilityConfig (nodeId : Int32) (ctx : SessionContext) :
    AsksOnce (getMobilityConfig nodeId ctx) .getMobilityConfig { sessionId := ctx.id, nodeId }
      fun groups result => result = (recordOfGroups groups).mapError .mapping :=
  asksOnce_request recordOfGroups (fun _ _ _ h => mapped_yields.mp h) fun _ => rfl

theorem asksOnce_getMobilityConfigs (ctx : SessionContext) :
    AsksOnce (getMobilityConfigs ctx) .getMobilityConfigs { sessionId := ctx.id } fun response =>
      ReadsEach recordOfGroups response.configs := by
  refine asksOnce_request (fun response =>
    (response.configs.entries.mapM (Mapped.entry recordOfGroups)).map SortedMap.empty.insertAll) ?_
    fun response => Mapped.readsEach_mapM _ response.configs
  intro response t x h
  rw [← Mapped.foldlM_insert_eq_mapM]
  exact mapped_yields.mp h

end Client

open Client in
/-- A collection is read as a whole or not at all. Sessions and hooks come in the order of the
response, one for each item, or the first item that cannot be mapped is the error. The mobility of
all nodes comes under exactly the ids of the response, or the smallest id whose groups hold no
record is the error; what a node has there is what reading the node alone gives for its groups. -/
theorem collections_read_whole :
    AsksOnce listSessions .getSessions {} (fun response =>
      ReadsAll SessionSummary.ofWire response.sessions) ∧
    ∀ ctx : SessionContext,
      AsksOnce (getHooks ctx) .getHooks { sessionId := ctx.id } (fun response =>
        ReadsAll Hook.ofWire response.hooks) ∧
      AsksOnce (getMobilityConfigs ctx) .getMobilityConfigs { sessionId := ctx.id } (fun response =>
        ReadsEach recordOfGroups response.configs) ∧
      ∀ nodeId, AsksOnce (getMobilityConfig nodeId ctx) .getMobilityConfig
        { sessionId := ctx.id, nodeId } fun groups result =>
          result = (recordOfGroups groups).mapError .mapping :=
  ⟨asksOnce_listSessions, fun ctx => ⟨asksOnce_getHooks ctx, asksOnce_getMobilityConfigs ctx,
    fun nodeId => asksOnce_getMobilityConfig nodeId ctx⟩⟩

/-- The groups of a node that has nothing but a refresh interval. -/
def refreshGroups (text : String) : OptionGroups :=
  ⟨[⟨"ns2", [⟨"", "refresh_ms", text, 0, []⟩]⟩]⟩

/-- Two of three nodes have a bad refresh interval. -/
def roamingNodes : MobilityOptions :=
  ⟨.ofList [(6, refreshGroups "soon"), (-2, refreshGroups "1.5"), (-9, refreshGroups " 40 ")]⟩

def roamingDaemon : Daemon Unit
  | ⟨.getMobilityConfigs, _⟩, s => (.ok roamingNodes, s)
  | _, s => (.error (.malformedResponse "" ""), s)

theorem roaming_refused :
    let program := (Client.getMobilityConfigs ⟨1, .definition⟩).run
    (program.run (Machine.world roamingDaemon) { daemon := () }).1 =
      .error (.mapping (.invalidNumber "mobility.refresh_ms" "1.5")) := by
  obtain ⟨-, hread⟩ := collections_read_whole
  obtain ⟨-, hconfigs, -⟩ := hread ⟨1, .definition⟩
  rcases hconfigs _ (Machine.world roamingDaemon) { daemon := () } with
    ⟨e, ht, -⟩ | ⟨response, ht, heach⟩
  · cases ht
  · cases ht
    refine (heach.error_iff _).mpr
      ⟨-2, refreshGroups "1.5", _, by decide, by decide +kernel, rfl, ?_⟩
    intro id groups hgroups hlt
    have hmem := SortedMap.get?_eq_some_iff.mp hgroups
    have hentries : roamingNodes.configs.entries = [(-9, refreshGroups " 40 "),
        (-2, refreshGroups "1.5"), (6, refreshGroups "soon")] := by decide
    simp only [hentries, List.mem_cons, Prod.mk.injEq, List.not_mem_nil, or_false] at hmem
    rcases hmem with ⟨rfl, rfl⟩ | ⟨rfl, rfl⟩ | ⟨rfl, rfl⟩
    · exact ⟨⟨none, some 40, none, none, none, none, none, none⟩, by decide +kernel⟩
    · exact absurd hlt (by decide)
    · exact absurd hlt (by decide)

end EmuControl
