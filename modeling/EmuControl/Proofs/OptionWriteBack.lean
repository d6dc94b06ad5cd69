import EmuControl.Proofs.OptionRecord
import EmuControl.Proofs.StartPlan
import EmuControl.Proofs.ValidatedStart

/-!
# Options that are read and written back

A start pins the options of a wireless network: it reads them and writes them back before it adds
the node. `Pinning` says of a trace that this is all that is ever written there, and it holds of a
start because it holds of each of its parts. A client that reads the mobility of a node and writes
it back does the same in two calls.
-/
namespace EmuControl

open Wire EmuControl.Number

/-- The options of a wireless network that groups on the wire hold. -/
def wlanOptions (response : OptionGroups) : OptionMap :=
  (flattenGroups (response.groups.map ConfigGroup.ofWire)).filter fun name _ =>
    wlanNames.contains name

/-- Options of a wireless network are written only right after they were read, and as they were
read. -/
inductive Pinning : List Turn → Prop
  | nil : Pinning []
  | other {turn : Turn} {t : List Turn} : turn.call.method ≠ .setWlanConfig → Pinning t →
      Pinning (turn :: t)
  | pinned {sessionId nodeId : Int32} {response : OptionGroups}
      {answer : Except ApiError Acknowledgment} {t : List Turn} : Pinning t →
      Pinning (⟨⟨.getWlanConfig, { sessionId, nodeId }⟩, .ok response⟩ ::
        ⟨⟨.setWlanConfig, { sessionId, nodeId, config := wlanOptions response }⟩, answer⟩ :: t)

namespace Pinning

theorem append {t u : List Turn} (ht : Pinning t) (hu : Pinning u) : Pinning (t ++ u) := by
  induction ht with
  | nil => exact hu
  | other hturn _ ih => exact .other hturn ih
  | pinned _ ih => exact .pinned ih

theorem singleton {turn : Turn} (h : turn.call.method ≠ .setWlanConfig) : Pinning [turn] :=
  .other h .nil

/-- What stands before a request that writes options. -/
theorem split {t before after : List Turn} {request : NodeOptionChange}
    {answer : Except ApiError Acknowledgment} (h : Pinning t)
    (ht : t = before ++ ⟨⟨.setWlanConfig, request⟩, answer⟩ :: after) :
    ∃ earlier response,
      before = earlier ++
        [⟨⟨.getWlanConfig, { sessionId := request.sessionId, nodeId := request.nodeId }⟩,
          .ok response⟩] ∧
      request.config = wlanOptions response := by
  induction h generalizing before with
  | nil => simp at ht
  | other hturn _ ih =>
    cases before with
    | nil =>
      cases ht
      exact absurd rfl hturn
    | cons first before =>
      rw [List.cons_append] at ht
      obtain ⟨rfl, hrest⟩ := List.cons.inj ht
      obtain ⟨earlier, response, rfl, hconfig⟩ := ih hrest
      exact ⟨_ :: earlier, response, rfl, hconfig⟩
  | @pinned sessionId nodeId response answer' t _ ih =>
    match before with
    | [] => cases ht
    | [first] =>
      rw [List.cons_append, List.nil_append] at ht
      obtain ⟨rfl, hrest⟩ := List.cons.inj ht
      obtain ⟨hwrite, _⟩ := List.cons.inj hrest
      cases hwrite
      exact ⟨[], response, rfl, rfl⟩
    | first :: second :: before =>
      rw [List.cons_append, List.cons_append] at ht
      obtain ⟨rfl, hwrite⟩ := List.cons.inj ht
      obtain ⟨rfl, hrest⟩ := List.cons.inj hwrite
      obtain ⟨earlier, response', rfl, hconfig⟩ := ih hrest
      exact ⟨_ :: _ :: earlier, response', rfl, hconfig⟩

end Pinning

namespace Client

variable {α β : Type}

/-- However it is answered, the operation pins what it writes. -/
def Pins (op : SessionM α) : Prop :=
  ∀ ctx t r ctx', op.Yields ctx t r ctx' → Pinning t

theorem pins_pure (a : α) : Pins (pure a) := by
  intro ctx t r ctx' h
  rw [(SessionM.yields_pure.mp h).1]
  exact .nil

theorem pins_report (level : Log.Level) (message : SessionContext → String) :
    Pins (report level message) := by
  intro ctx t r ctx' h
  rw [(report_yields.mp h).1]
  exact .nil

theorem pins_bind {op : SessionM α} {k : α → SessionM β} (hop : Pins op) (hk : ∀ a, Pins (k a)) :
    Pins (op >>= k) := by
  intro ctx t r ctx' h
  rcases SessionM.yields_bind.mp h with ⟨e, h₁, _⟩ | ⟨t₁, a, ctx₁, t₂, h₁, h₂, rfl⟩
  · exact hop ctx t _ ctx' h₁
  · exact (hop ctx t₁ _ ctx₁ h₁).append (hk a ctx₁ t₂ r ctx' h₂)

theorem pins_ite {c : Prop} [Decidable c] {op op' : SessionM α} (hop : Pins op)
    (hop' : Pins op') : Pins (if c then op else op') := by
  split
  · exact hop
  · exact hop'

theorem pins_operation {o : Operation} (ho : o.method ≠ .setWlanConfig) : Pins o.perform := by
  intro ctx t r ctx' h
  rcases Operation.perform_cases h with ⟨_, _, rfl, _⟩ | ⟨c, answer, hcall, rfl⟩
  · exact .nil
  · refine .singleton ?_
    rw [Operation.call_method hcall]
    exact ho

theorem pins_allAccepted {step : α → SessionM Bool} (hstep : ∀ a, Pins (step a)) (as : List α) :
    Pins (allAccepted step as) := by
  induction as with
  | nil => exact pins_pure true
  | cons a rest ih =>
    exact pins_bind (hstep a) fun _ => pins_ite ih (pins_pure false)

theorem pins_setState (state : SessionState) : Pins (setState state) :=
  pins_operation (o := .setState state) Method.noConfusion

theorem pins_addHook (hook : Hook) : Pins (addHook hook) :=
  pins_bind (pins_operation (o := .createHook hook) Method.noConfusion) fun _ =>
    pins_ite (pins_pure true) (pins_bind (pins_report _ _) fun _ => pins_pure false)

theorem pins_addLink (link : Link) : Pins (addLink link) :=
  pins_bind (pins_operation (o := .createLink link) Method.noConfusion) fun _ =>
    pins_ite (pins_pure true) (pins_bind (pins_report _ _) fun _ => pins_pure false)

/-- The options that a node was read with are those of the response. -/
theorem getNodeWlanConfig_of_ok {node : Node} {ctx : SessionContext} {t : List Turn}
    {config : WlanConfig} (h : (getNodeWlanConfig node ctx).run.Yields t (.ok config)) :
    ∃ nodeId response, node.id = some nodeId ∧
      t = [⟨⟨.getWlanConfig, { sessionId := ctx.id, nodeId }⟩, .ok response⟩] ∧
      OptionRecord.toMap config = wlanOptions response := by
  rcases nodeId_bind_yields h with ⟨_, _, he⟩ | ⟨nodeId, hid, h₁⟩
  · cases he
  rcases request_bind_yields.mp h₁ with ⟨_, _, he⟩ | ⟨response, u, hu, rfl⟩
  · cases he
  obtain ⟨rfl, hrecord⟩ := mapped_yields.mp hu
  refine ⟨nodeId, response, hid, rfl, WlanConfig.toMap_of_ofGroups ?_⟩
  change _ = Except.mapError _ (OptionRecord.ofGroups (response.groups.map ConfigGroup.ofWire))
    at hrecord
  cases hgroups : (OptionRecord.ofGroups (response.groups.map ConfigGroup.ofWire) :
      Mapped WlanConfig) with
  | error e =>
    rw [hgroups] at hrecord
    cases hrecord
  | ok config' =>
    rw [hgroups] at hrecord
    cases hrecord
    rfl

theorem setNodeWlanConfig_yields {node : Node} {nodeId : Int32} (hid : node.id = some nodeId)
    {config : WlanConfig} {ctx : SessionContext} {t : List Turn} {r : Except ConnectError Bool}
    (h : (setNodeWlanConfig node config ctx).run.Yields t r) :
    ∃ answer, t = [⟨⟨.setWlanConfig,
      { sessionId := ctx.id, nodeId, config := OptionRecord.toMap config }⟩, answer⟩] := by
  rcases nodeId_bind_yields h with ⟨hnone, _⟩ | ⟨nodeId', hid', h₁⟩
  · cases hid.symm.trans hnone
  · cases hid.symm.trans hid'
    exact makes_request _ (by simp) _ _ h₁

theorem pins_pinWlanConfig (node : Node) : Pins (pinWlanConfig node) := by
  intro ctx t r ctx' h
  rcases SessionM.yields_bind.mp h with ⟨e, h₁, _⟩ | ⟨t₁, config, ctx₁, t₂, h₁, h₂, rfl⟩
  · exact pins_operation (o := .getNodeWlanConfig node) Method.noConfusion _ _ _ _ h₁
  · obtain ⟨h₁, rfl⟩ := onSession_yields.mp h₁
    obtain ⟨h₂, rfl⟩ := onSession_yields.mp (StartPlan.orReport_yields h₂)
    obtain ⟨nodeId, response, hid, rfl, hmap⟩ := getNodeWlanConfig_of_ok h₁
    obtain ⟨answer, rfl⟩ := setNodeWlanConfig_yields hid h₂
    rw [hmap]
    exact .pinned .nil

theorem pins_addNode (node : Node) : Pins (addNode node) := by
  have hcreate : ∀ pinned : Bool, Pins (if pinned then do
      let id ← onSession (createNode node)
      report .debug fun ctx => sessionText ctx ++ "node " ++ writeInt32 id ++ " in place"
      return true
    else return false) := fun _ =>
    pins_ite
      (pins_bind (pins_operation (o := .createNode node) Method.noConfusion) fun _ =>
        pins_bind (pins_report _ _) fun _ => pins_pure true)
      (pins_pure false)
  unfold addNode
  cases node.isWlan with
  | true => exact pins_bind (pins_pinWlanConfig node) hcreate
  | false => exact pins_bind (pins_pure true) hcreate

theorem pins_start (nodes : List Node) (links : List Link) (hooks : List Hook) :
    Pins (start nodes links hooks) := by
  refine pins_bind (pins_report _ _) fun _ => ?_
  refine pins_bind (pins_allAccepted pins_setState _) fun _ => pins_ite (pins_pure false) ?_
  refine pins_bind (pins_allAccepted pins_addHook hooks) fun _ => pins_ite (pins_pure false) ?_
  refine pins_bind (pins_allAccepted pins_addNode nodes) fun _ => pins_ite (pins_pure false) ?_
  refine pins_bind (pins_allAccepted pins_addLink links) fun _ => pins_ite (pins_pure false) ?_
  exact pins_setState .instantiation

/-- Reads the mobility of a node and writes it back. -/
def rewriteMobility (nodeId : Int32) (ctx : SessionContext) : ClientM Bool := do
  let config ← getMobilityConfig nodeId ctx
  setMobilityConfig nodeId config ctx

end Client

/-- The mobility options that groups on the wire hold, with the refresh interval in canonical
form. -/
def canonicalMobility (response : OptionGroups) : OptionMap :=
  ((flattenGroups (response.groups.map ConfigGroup.ofWire)).filter fun name _ =>
    mobilityNames.contains name).mapValues fun name raw =>
      if name = "refresh_ms" then canonicalInteger raw else raw

open Client in
theorem rewriteMobility_turns {nodeId : Int32} {ctx : SessionContext} {t : List Turn}
    {r : Except ConnectError Bool} (h : (rewriteMobility nodeId ctx).run.Yields t r) :
    (∃ e, t = [⟨⟨.getMobilityConfig, { sessionId := ctx.id, nodeId }⟩, .error e⟩]) ∨
    (∃ response e, t = [⟨⟨.getMobilityConfig, { sessionId := ctx.id, nodeId }⟩, .ok response⟩] ∧
      (recordOfGroups response : Mapped MobilityConfig) = .error e) ∨
    ∃ response answer,
      t = [⟨⟨.getMobilityConfig, { sessionId := ctx.id, nodeId }⟩, .ok response⟩,
        ⟨⟨.setMobilityConfig,
          { sessionId := ctx.id, nodeId, config := canonicalMobility response }⟩, answer⟩] := by
  rw [rewriteMobility, getMobilityConfig, bind_assoc] at h
  rcases request_bind_yields.mp h with ⟨e, rfl, _⟩ | ⟨response, u, hu, rfl⟩
  · exact .inl ⟨e, rfl⟩
  rcases mapped_bind_yields hu with ⟨e, hrecord, rfl, _⟩ | ⟨config, hrecord, hset⟩
  · exact .inr (.inl ⟨response, e, rfl, hrecord⟩)
  obtain ⟨answer, rfl⟩ : ∃ answer, u = [⟨⟨.setMobilityConfig,
      { sessionId := ctx.id, nodeId, config := OptionRecord.toMap config }⟩, answer⟩] :=
    makes_request _ (by simp) _ _ hset
  refine .inr (.inr ⟨response, answer, ?_⟩)
  rw [MobilityConfig.toMap_of_ofGroups hrecord]
  rfl

/-- A record reads and writes options as its schema does, so nothing that is reserved is lost. The
options of a wireless network can always be read, and what a start writes for a node is what it has
read for it just before, cut down to the five names that there are and otherwise verbatim. The
mobility of a node that is read and written back is the same but for the spelling of its refresh
interval. -/
theorem records_agree_with_codec :
    OptionRecord.AgreesWithSchema WlanConfig ∧ OptionRecord.AgreesWithSchema MobilityConfig ∧
    (∀ groups, ∃ config : WlanConfig, OptionRecord.ofGroups groups = .ok config) ∧
    (∀ {σ : Type} (world : World σ) (s : σ) (ctx : SessionContext) (nodes : List Node)
      (links : List Link) (hooks : List Hook) (before after : List Turn)
      (request : NodeOptionChange) (answer : Except ApiError Acknowledgment),
      ((Client.start nodes links hooks).run.run ctx).trace world s =
        before ++ ⟨⟨.setWlanConfig, request⟩, answer⟩ :: after →
      ∃ earlier response,
        before = earlier ++
          [⟨⟨.getWlanConfig, { sessionId := request.sessionId, nodeId := request.nodeId }⟩,
            .ok response⟩] ∧
        request.config = wlanOptions response) ∧
    ∀ {σ : Type} (world : World σ) (s : σ) (ctx : SessionContext) (nodeId : Int32),
      let t := (Client.rewriteMobility nodeId ctx).run.trace world s
      (∃ e, t = [⟨⟨.getMobilityConfig, { sessionId := ctx.id, nodeId }⟩, .error e⟩]) ∨
      (∃ response e, t = [⟨⟨.getMobilityConfig, { sessionId := ctx.id, nodeId }⟩, .ok response⟩] ∧
        (Client.recordOfGroups response : Mapped MobilityConfig) = .error e) ∨
      ∃ response answer,
        t = [⟨⟨.getMobilityConfig, { sessionId := ctx.id, nodeId }⟩, .ok response⟩,
          ⟨⟨.setMobilityConfig,
            { sessionId := ctx.id, nodeId, config := canonicalMobility response }⟩, answer⟩] := by
  refine ⟨OptionRecord.wlanConfig_isFaithful.agreesWithSchema,
    OptionRecord.mobilityConfig_isFaithful.agreesWithSchema, WlanConfig.ofGroups_ok, ?_, ?_⟩
  · intro σ world s ctx nodes links hooks before after request answer ht
    have hpinning := Client.pins_start nodes links hooks ctx _ _ _ (Program.yields_run world _ s)
    exact hpinning.split ht
  · intro σ world s ctx nodeId
    exact rewriteMobility_turns (Program.yields_run world _ s)

/-- What a daemon may say about a wireless network: a name that is not known, one that is given
twice, and blanks. -/
def radioOptions : OptionGroups where
  groups :=
    [⟨"basic", [⟨"", "range", "", 0, []⟩, ⟨"", "bandwidth", "54000000", 3, []⟩]⟩,
     ⟨"more", [⟨"", "range", " 275 ", 0, []⟩, ⟨"", "gain", "1", 0, []⟩]⟩]

/-- A daemon that accepts everything and has these options for every wireless network. -/
def radioDaemon : Daemon Unit
  | ⟨.getWlanConfig, _⟩, s => (.ok radioOptions, s)
  | c, s => acceptingDaemon c s

theorem radio_pinned :
    let start := Client.start [{ id := some 5, kind := .wirelessLan }] [] []
    let t := (start.run.run ⟨1, .definition⟩).trace (Machine.world radioDaemon) { daemon := () }
    let request : NodeOptionChange :=
      { sessionId := 1, nodeId := 5,
        config := .ofList [("bandwidth", "54000000"), ("range", " 275 ")] }
    t = t.take 3 ++ ⟨⟨.setWlanConfig, request⟩, .ok ⟨true⟩⟩ :: t.drop 4 ∧
      ∃ earlier response,
        t.take 3 = earlier ++
          [⟨⟨.getWlanConfig, { sessionId := 1, nodeId := 5 }⟩, .ok response⟩] ∧
        request.config = wlanOptions response := by
  intro start t request
  have ht : t = t.take 3 ++ ⟨⟨.setWlanConfig, request⟩, .ok ⟨true⟩⟩ :: t.drop 4 := rfl
  obtain ⟨_, _, _, hstart, _⟩ := records_agree_with_codec
  exact ⟨ht, hstart _ _ _ _ _ _ _ _ request _ ht⟩

end EmuControl
