import EmuControl.Client.Configuration
import EmuControl.Client.Orchestration
import EmuControl.Client.Service
import EmuControl.Proofs.Trace

/-!
# Operations of a client and their calls

`Operation` lists everything that a client can be asked to do with a session, and `Operation.call`
says which call each of them makes, or why it makes none. The main statement is that an operation
says nothing else to the daemon: its trace is that one call with its answer, or empty when the call
cannot be made up. Only a change of state touches the context, and only when it is acknowledged.
-/
namespace EmuControl

open Wire

namespace Client

variable {α β : Type}

theorem request_yields {m : Method} {r : m.Request} {t : List Turn}
    {x : Except ConnectError m.Response} :
    (request m r).run.Yields t x ↔
      ∃ answer, t = [⟨⟨m, r⟩, answer⟩] ∧ x = answer.mapError ConnectError.ofApi := by
  change (Program.call m r >>= fun answer => _).Yields t x ↔ _
  rw [Program.yields_bind]
  constructor
  · rintro ⟨_, answer, t₂, h, h₂, rfl⟩
    rw [Program.yields_perform.mp h]
    cases answer with
    | ok response =>
      obtain ⟨rfl, rfl⟩ := h₂
      exact ⟨.ok response, rfl, rfl⟩
    | error e =>
      obtain ⟨rfl, rfl⟩ := h₂
      exact ⟨.error e, rfl, rfl⟩
  · rintro ⟨answer, rfl, rfl⟩
    refine ⟨[⟨⟨m, r⟩, answer⟩], answer, [], Program.yields_perform.mpr rfl, ?_, rfl⟩
    cases answer <;> exact ⟨rfl, rfl⟩

/-- A request that fails ends the operation; otherwise its response is taken up. -/
theorem request_bind_yields {m : Method} {r : m.Request} {k : m.Response → ClientM α}
    {t : List Turn} {x : Except ConnectError α} :
    (request m r >>= k).run.Yields t x ↔
      (∃ e, t = [⟨⟨m, r⟩, .error e⟩] ∧ x = .error (.ofApi e)) ∨
      ∃ response u, (k response).run.Yields u x ∧ t = ⟨⟨m, r⟩, .ok response⟩ :: u := by
  rw [Program.yields_except_bind]
  constructor
  · rintro (⟨e, h, rfl⟩ | ⟨t₁, response, u, h₁, h₂, rfl⟩)
    · obtain ⟨answer, rfl, he⟩ := request_yields.mp h
      cases answer with
      | ok response => cases he
      | error e' =>
        cases he
        exact .inl ⟨e', rfl, rfl⟩
    · obtain ⟨answer, rfl, hr⟩ := request_yields.mp h₁
      cases answer with
      | error e => cases hr
      | ok response' =>
        cases hr
        exact .inr ⟨response, u, h₂, rfl⟩
  · rintro (⟨e, rfl, rfl⟩ | ⟨response, u, h, rfl⟩)
    · exact .inl ⟨.ofApi e, request_yields.mpr ⟨.error e, rfl, rfl⟩, rfl⟩
    · exact .inr ⟨[⟨⟨m, r⟩, .ok response⟩], response, u,
        request_yields.mpr ⟨.ok response, rfl, rfl⟩, h, rfl⟩

@[simp] theorem silent_note (level : Log.Level) (message : String) :
    Program.Silent (note level message) :=
  Program.silent_lift (Program.quiet_log _ _ _)

theorem note_bind_yields {level : Log.Level} {message : String} {k : ClientM α} {t : List Turn}
    {x : Except ConnectError α} :
    (note level message >>= fun _ => k).run.Yields t x ↔ k.run.Yields t x := by
  rw [Program.yields_except_bind]
  constructor
  · rintro (⟨e, h, _⟩ | ⟨t₁, _, t₂, h₁, h₂, rfl⟩)
    · obtain ⟨_, _, he⟩ := Program.yields_except_lift.mp h
      cases he
    · rw [silent_note level message t₁ _ h₁]
      exact h₂
  · intro h
    refine .inr ⟨[], (), t, ?_, h, rfl⟩
    exact Program.yields_except_lift.mpr ⟨(), Program.yields_perform.mpr rfl, rfl⟩

theorem mapped_yields {m : Mapped α} {t : List Turn} {x : Except ConnectError α} :
    (mapped m).run.Yields t x ↔ t = [] ∧ x = m.mapError .mapping := by
  cases m <;> exact Iff.rfl

@[simp] theorem silent_mapped (m : Mapped α) : Program.Silent (mapped m) :=
  fun _ _ h => (mapped_yields.mp h).1

theorem mapped_bind_yields {m : Mapped α} {k : α → ClientM β} {t : List Turn}
    {x : Except ConnectError β} (h : (mapped m >>= k).run.Yields t x) :
    (∃ e, m = .error e ∧ t = [] ∧ x = .error (.mapping e)) ∨
      ∃ a, m = .ok a ∧ (k a).run.Yields t x := by
  cases m with
  | error e => exact .inl ⟨e, rfl, h⟩
  | ok a => exact .inr ⟨a, rfl, h⟩

theorem nodeId_yields {node : Node} {operation : String} {t : List Turn}
    {x : Except ConnectError Int32} :
    (nodeId node operation).run.Yields t x ↔
      t = [] ∧ x = node.id.elim (.error (.missingNodeId operation)) .ok := by
  unfold nodeId
  cases node.id <;> exact Iff.rfl

theorem nodeId_bind_yields {node : Node} {operation : String} {k : Int32 → ClientM β}
    {t : List Turn} {x : Except ConnectError β}
    (h : (nodeId node operation >>= k).run.Yields t x) :
    (node.id = none ∧ t = [] ∧ x = .error (.missingNodeId operation)) ∨
      ∃ id, node.id = some id ∧ (k id).run.Yields t x := by
  unfold nodeId at h
  cases hid : node.id with
  | none => rw [hid] at h; exact .inl ⟨rfl, h⟩
  | some id => rw [hid] at h; exact .inr ⟨id, rfl, h⟩

theorem onSession_yields {op : SessionContext → ClientM α} {ctx ctx' : SessionContext}
    {t : List Turn} {r : Except ConnectError α} :
    (onSession op).Yields ctx t r ctx' ↔ (op ctx).run.Yields t r ∧ ctx' = ctx := by
  change ((op ctx).run >>= fun result => pure (result, ctx)).Yields t (r, ctx') ↔ _
  rw [Program.yields_bind]
  constructor
  · rintro ⟨t₁, result, _, h, ⟨rfl, h₂⟩, rfl⟩
    obtain ⟨rfl, rfl⟩ := Prod.mk.inj h₂
    exact ⟨by rwa [List.append_nil], rfl⟩
  · rintro ⟨h, rfl⟩
    exact ⟨t, r, [], h, ⟨rfl, rfl⟩, (List.append_nil t).symm⟩

theorem report_yields {level : Log.Level} {message : SessionContext → String}
    {ctx ctx' : SessionContext} {t : List Turn} {r : Except ConnectError Unit} :
    (report level message).Yields ctx t r ctx' ↔ t = [] ∧ r = .ok () ∧ ctx' = ctx := by
  unfold report
  rw [onSession_yields, Program.yields_except_lift, ← and_assoc]
  constructor
  · rintro ⟨⟨_, h, rfl⟩, rfl⟩
    exact ⟨⟨Program.yields_perform.mp h, rfl⟩, rfl⟩
  · rintro ⟨⟨rfl, rfl⟩, rfl⟩
    exact ⟨⟨(), Program.yields_perform.mpr rfl, rfl⟩, rfl⟩

/-- The context that a change of state leaves when it is answered so. -/
def contextAfter (state : SessionState) (ctx : SessionContext) :
    Except ApiError Acknowledgment → SessionContext
  | .ok ⟨true⟩ => { ctx with state }
  | _ => ctx

theorem setState_yields {state : SessionState} {ctx ctx' : SessionContext} {t : List Turn}
    {r : Except ConnectError Bool} (h : (setState state).Yields ctx t r ctx') :
    ∃ answer : Except ApiError Acknowledgment,
      t = [⟨⟨.setSessionState, ⟨ctx.id, state.number⟩⟩, answer⟩] ∧
      r = (answer.mapError ConnectError.ofApi).map Acknowledgment.result ∧
      ctx' = contextAfter state ctx answer := by
  change ((request .setSessionState _).run >>= fun result => _).Yields t (r, ctx') at h
  obtain ⟨t₁, x, t₂, h₁, h₂, rfl⟩ := Program.yields_bind.mp h
  obtain ⟨answer, rfl, rfl⟩ := request_yields.mp h₁
  cases answer with
  | error e =>
    obtain ⟨rfl, he⟩ := h₂
    obtain ⟨rfl, rfl⟩ := Prod.mk.inj he
    exact ⟨.error e, rfl, rfl, rfl⟩
  | ok ack =>
    -- either branch logs an event and then ends
    rcases ack with ⟨_ | _⟩ <;>
    · obtain ⟨t₃, _, _, h₃, ⟨rfl, he⟩, rfl⟩ := Program.yields_bind.mp h₂
      obtain ⟨rfl, rfl⟩ := Prod.mk.inj he
      rw [Program.quiet_log _ _ _ t₃ _ h₃]
      exact ⟨_, rfl, rfl, rfl⟩

/-- The operation makes exactly the given call, or none when there is an error in its place. -/
def Makes (op : ClientM α) (call : Except ConnectError Call) : Prop :=
  ∀ t x, op.run.Yields t x →
    match call with
    | .ok c => ∃ answer, t = [⟨c, answer⟩]
    | .error e => t = [] ∧ x = .error e

theorem makes_request {m : Method} (r : m.Request) {k : m.Response → ClientM α}
    (hk : ∀ response, Program.Silent (k response)) : Makes (request m r >>= k) (.ok ⟨m, r⟩) := by
  intro t x h
  rcases request_bind_yields.mp h with ⟨e, rfl, _⟩ | ⟨response, u, hu, rfl⟩
  · exact ⟨.error e, rfl⟩
  · rw [hk response u x hu]
    exact ⟨.ok response, rfl⟩

/-- What is made up before the call either goes into the call or ends the operation. -/
theorem makes_bind {op : ClientM α} {k : α → ClientM β} {value : Except ConnectError α}
    {call : α → Except ConnectError Call} (hop : ∀ t x, op.run.Yields t x → t = [] ∧ x = value)
    (hk : ∀ a, Makes (k a) (call a)) : Makes (op >>= k) (value >>= call) := by
  intro t x h
  rcases Program.yields_except_bind.mp h with ⟨e, h₁, rfl⟩ | ⟨t₁, a, t₂, h₁, h₂, rfl⟩
  · obtain ⟨rfl, rfl⟩ := hop t _ h₁
    exact ⟨rfl, rfl⟩
  · obtain ⟨rfl, rfl⟩ := hop t₁ _ h₁
    exact hk a t₂ x h₂

theorem makes_mapped {m : Mapped α} {k : α → ClientM β} {call : α → Except ConnectError Call}
    (hk : ∀ a, Makes (k a) (call a)) : Makes (mapped m >>= k) (m.mapError .mapping >>= call) :=
  makes_bind (fun _ _ h => mapped_yields.mp h) hk

theorem makes_nodeId {node : Node} {operation : String} {k : Int32 → ClientM β}
    {call : Int32 → Except ConnectError Call} (hk : ∀ id, Makes (k id) (call id)) :
    Makes (nodeId node operation >>= k)
      (node.id.elim (.error (.missingNodeId operation)) .ok >>= call) :=
  makes_bind (fun _ _ h => nodeId_yields.mp h) hk

end Client

/-- Everything that a client can be asked to do with a session. -/
inductive Operation where
  | createSession
  | deleteSession (sessionId : Int32)
  | listSessions
  | getSession (sessionId : Int32)
  | setState (state : SessionState)
  | getSessionOptions
  | getSessionOptionMap
  | setSessionOptions (options : List ConfigOption)
  | getLocation
  | setLocation (config : LocationConfig)
  | saveXml
  | openXml (data : Bytes)
  | createNode (node : Node)
  | editNode (node : Node)
  | deleteNode (nodeId : Int32)
  | createLink (link : Link)
  | editLink (link : Link)
  | createHook (hook : Hook)
  | getHooks
  | getWlanConfig (nodeId : Int32)
  | setWlanConfig (nodeId : Int32) (config : WlanConfig)
  | getNodeWlanConfig (node : Node)
  | setNodeWlanConfig (node : Node) (config : WlanConfig)
  | getMobilityConfig (nodeId : Int32)
  | getMobilityConfigs
  | setMobilityConfig (nodeId : Int32) (config : MobilityConfig)
  | mobilityAction (nodeId : Int32) (action : MobilityAction)
  | getEmaneConfig
  | setEmaneConfig (options : List ConfigOption)
  | getEmaneModels
  | getEmaneModelConfig (nodeId : Int32) (model : String)
  | setEmaneModelConfig (nodeId : Int32) (model : String) (options : List ConfigOption)
  | getServices
  | getServiceDefaults
  | setServiceDefaults (defaults : ServiceDefaults)
  | getService (nodeId : Int32) (service : String)
  | setService (nodeId : Int32) (service : String) (data : ServiceData)
  | getServiceFile (nodeId : Int32) (service file : String)
  | setServiceFile (nodeId : Int32) (service : String) (file : ServiceFile)
  /-- Starts, stops, restarts or validates a service. -/
  | serviceAction (nodeId : Int32) (service : String) (action : ServiceAction)

namespace Operation

/-- What an operation gives when it does not fail. -/
abbrev Result : Operation → Type
  | createSession => SessionContext
  | listSessions => List SessionSummary
  | getSession _ => Session
  | getSessionOptions | getEmaneConfig | getEmaneModelConfig _ _ => List ConfigGroup
  | getSessionOptionMap => OptionMap
  | getLocation => LocationConfig
  | saveXml => Bytes
  | openXml _ => Option Int32
  | createNode _ => Int32
  | getHooks => List Hook
  | getWlanConfig _ | getNodeWlanConfig _ => WlanConfig
  | getMobilityConfig _ => MobilityConfig
  | getMobilityConfigs => SortedMap Int32 MobilityConfig
  | getEmaneModels => List String
  | getServices => ServiceGroups
  | getServiceDefaults => ServiceDefaults
  | getService _ _ => ServiceData
  | getServiceFile _ _ _ => ServiceFile
  | _ => Bool

/-- What the client does when it is asked. -/
def perform : (o : Operation) → SessionM o.Result
  | createSession => Client.onSession fun _ => Client.createSession
  | deleteSession id => Client.onSession fun _ => Client.deleteSession id
  | listSessions => Client.onSession fun _ => Client.listSessions
  | getSession id => Client.onSession fun _ => Client.getSession id
  | setState state => Client.setState state
  | getSessionOptions => Client.onSession Client.getSessionOptions
  | getSessionOptionMap => Client.onSession Client.getSessionOptionMap
  | setSessionOptions options => Client.onSession (Client.setSessionOptions options)
  | getLocation => Client.onSession Client.getLocation
  | setLocation config => Client.onSession (Client.setLocation config)
  | saveXml => Client.onSession Client.saveXml
  | openXml data => Client.onSession fun _ => Client.openXml data
  | createNode node => Client.onSession (Client.createNode node)
  | editNode node => Client.onSession (Client.editNode node)
  | deleteNode id => Client.onSession (Client.deleteNode id)
  | createLink link => Client.onSession (Client.createLink link)
  | editLink link => Client.onSession (Client.editLink link)
  | createHook hook => Client.onSession (Client.createHook hook)
  | getHooks => Client.onSession Client.getHooks
  | getWlanConfig id => Client.onSession (Client.getWlanConfig id)
  | setWlanConfig id config => Client.onSession (Client.setWlanConfig id config)
  | getNodeWlanConfig node => Client.onSession (Client.getNodeWlanConfig node)
  | setNodeWlanConfig node config => Client.onSession (Client.setNodeWlanConfig node config)
  | getMobilityConfig id => Client.onSession (Client.getMobilityConfig id)
  | getMobilityConfigs => Client.onSession Client.getMobilityConfigs
  | setMobilityConfig id config => Client.onSession (Client.setMobilityConfig id config)
  | mobilityAction id action => Client.onSession (Client.mobilityAction id action)
  | getEmaneConfig => Client.onSession Client.getEmaneConfig
  | setEmaneConfig options => Client.onSession (Client.setEmaneConfig options)
  | getEmaneModels => Client.onSession Client.getEmaneModels
  | getEmaneModelConfig id model => Client.onSession (Client.getEmaneModelConfig id model)
  | setEmaneModelConfig id model options =>
    Client.onSession (Client.setEmaneModelConfig id model options)
  | getServices => Client.onSession fun _ => Client.getServices
  | getServiceDefaults => Client.onSession Client.getServiceDefaults
  | setServiceDefaults defaults => Client.onSession (Client.setServiceDefaults defaults)
  | getService id service => Client.onSession (Client.getService id service)
  | setService id service data => Client.onSession (Client.setService id service data)
  | getServiceFile id service file => Client.onSession (Client.getServiceFile id service file)
  | setServiceFile id service file => Client.onSession (Client.setServiceFile id service file)
  | serviceAction id service action => Client.onSession (Client.serviceAction id service action)

/-- The call that an operation makes on a session, or the error for which it makes none. -/
def call (ctx : SessionContext) : Operation → Except ConnectError Call
  | createSession => .ok ⟨.createSession, { sessionId := none }⟩
  | deleteSession sessionId => .ok ⟨.deleteSession, { sessionId }⟩
  | listSessions => .ok ⟨.getSessions, {}⟩
  | getSession sessionId => .ok ⟨.getSession, { sessionId }⟩
  | setState state => .ok ⟨.setSessionState, { sessionId := ctx.id, state := state.number }⟩
  | getSessionOptions | getSessionOptionMap => .ok ⟨.getSessionOptions, { sessionId := ctx.id }⟩
  | setSessionOptions options => do
    let config ← (OptionSchema.session.encodeOptions options).mapError .mapping
    .ok ⟨.setSessionOptions, { sessionId := ctx.id, config }⟩
  | getLocation => .ok ⟨.getSessionLocation, { sessionId := ctx.id }⟩
  | setLocation config =>
    .ok ⟨.setSessionLocation,
      { sessionId := ctx.id, position := some config.toWire.1, scale := config.toWire.2 }⟩
  | saveXml => .ok ⟨.saveXml, { sessionId := ctx.id }⟩
  | openXml data => .ok ⟨.openXml, { data }⟩
  | createNode node => .ok ⟨.addNode, { sessionId := ctx.id, node := some node.toWire }⟩
  | editNode node => do
    let nodeId ← node.id.elim (.error (.missingNodeId "edit_node")) .ok
    .ok ⟨.editNode,
      { sessionId := ctx.id, nodeId, position := node.position.map Position.toWire }⟩
  | deleteNode nodeId => .ok ⟨.deleteNode, { sessionId := ctx.id, nodeId }⟩
  | createLink link => do
    let wire ← link.toWire.mapError .mapping
    .ok ⟨.addLink, { sessionId := ctx.id, link := some wire }⟩
  | editLink link =>
    .ok ⟨.editLink,
      { sessionId := ctx.id
        nodeOne := link.nodeOne
        nodeTwo := link.nodeTwo
        interfaceOne := link.interfaceOne.bind (·.id)
        interfaceTwo := link.interfaceTwo.bind (·.id)
        options := link.options.map LinkOptions.toWire }⟩
  | createHook hook => .ok ⟨.addHook, { sessionId := ctx.id, hook := some hook.toWire }⟩
  | getHooks => .ok ⟨.getHooks, { sessionId := ctx.id }⟩
  | getWlanConfig nodeId => .ok ⟨.getWlanConfig, { sessionId := ctx.id, nodeId }⟩
  | setWlanConfig nodeId config =>
    .ok ⟨.setWlanConfig, { sessionId := ctx.id, nodeId, config := OptionRecord.toMap config }⟩
  | getNodeWlanConfig node => do
    let nodeId ← node.id.elim (.error (.missingNodeId "get_wlan_config")) .ok
    .ok ⟨.getWlanConfig, { sessionId := ctx.id, nodeId }⟩
  | setNodeWlanConfig node config => do
    let nodeId ← node.id.elim (.error (.missingNodeId "set_wlan_config")) .ok
    .ok ⟨.setWlanConfig, { sessionId := ctx.id, nodeId, config := OptionRecord.toMap config }⟩
  | getMobilityConfig nodeId => .ok ⟨.getMobilityConfig, { sessionId := ctx.id, nodeId }⟩
  | getMobilityConfigs => .ok ⟨.getMobilityConfigs, { sessionId := ctx.id }⟩
  | setMobilityConfig nodeId config =>
    .ok ⟨.setMobilityConfig, { sessionId := ctx.id, nodeId, config := OptionRecord.toMap config }⟩
  | mobilityAction nodeId action =>
    .ok ⟨.mobilityAction, { sessionId := ctx.id, nodeId, action := action.number }⟩
  | getEmaneConfig => .ok ⟨.getEmaneConfig, { sessionId := ctx.id }⟩
  | setEmaneConfig options => do
    let config ← (OptionSchema.emane.encodeOptions options).mapError .mapping
    .ok ⟨.setEmaneConfig, { sessionId := ctx.id, config }⟩
  | getEmaneModels => .ok ⟨.getEmaneModels, { sessionId := ctx.id }⟩
  | getEmaneModelConfig nodeId model =>
    .ok ⟨.getEmaneModelConfig, { sessionId := ctx.id, nodeId, model }⟩
  | setEmaneModelConfig nodeId model options => do
    let config ← (OptionSchema.emaneModel.encodeOptions options).mapError .mapping
    .ok ⟨.setEmaneModelConfig, { sessionId := ctx.id, nodeId, model, config }⟩
  | getServices => .ok ⟨.getServices, {}⟩
  | getServiceDefaults => .ok ⟨.getServiceDefaults, { sessionId := ctx.id }⟩
  | setServiceDefaults defaults =>
    .ok ⟨.setServiceDefaults, { sessionId := ctx.id, defaults := ServiceDefaults.toWire defaults }⟩
  | getService nodeId service => .ok ⟨.getNodeService, { sessionId := ctx.id, nodeId, service }⟩
  | setService nodeId service data =>
    .ok ⟨.setNodeService,
      { sessionId := ctx.id
        nodeId
        service
        startup := data.startup
        validate := data.validate
        shutdown := data.shutdown }⟩
  | getServiceFile nodeId service file =>
    .ok ⟨.getNodeServiceFile, { sessionId := ctx.id, nodeId, service, file }⟩
  | setServiceFile nodeId service file =>
    .ok ⟨.setNodeServiceFile,
      { sessionId := ctx.id, nodeId, service, file := file.name, data := Bytes.ofText file.data }⟩
  | serviceAction nodeId service action =>
    .ok ⟨.serviceAction, { sessionId := ctx.id, nodeId, service, action := action.number }⟩

/-- The capability of the daemon that an operation makes use of. -/
def method : Operation → Method
  | createSession => .createSession
  | deleteSession _ => .deleteSession
  | listSessions => .getSessions
  | getSession _ => .getSession
  | setState _ => .setSessionState
  | getSessionOptions | getSessionOptionMap => .getSessionOptions
  | setSessionOptions _ => .setSessionOptions
  | getLocation => .getSessionLocation
  | setLocation _ => .setSessionLocation
  | saveXml => .saveXml
  | openXml _ => .openXml
  | createNode _ => .addNode
  | editNode _ => .editNode
  | deleteNode _ => .deleteNode
  | createLink _ => .addLink
  | editLink _ => .editLink
  | createHook _ => .addHook
  | getHooks => .getHooks
  | getWlanConfig _ | getNodeWlanConfig _ => .getWlanConfig
  | setWlanConfig _ _ | setNodeWlanConfig _ _ => .setWlanConfig
  | getMobilityConfig _ => .getMobilityConfig
  | getMobilityConfigs => .getMobilityConfigs
  | setMobilityConfig _ _ => .setMobilityConfig
  | mobilityAction _ _ => .mobilityAction
  | getEmaneConfig => .getEmaneConfig
  | setEmaneConfig _ => .setEmaneConfig
  | getEmaneModels => .getEmaneModels
  | getEmaneModelConfig _ _ => .getEmaneModelConfig
  | setEmaneModelConfig _ _ _ => .setEmaneModelConfig
  | getServices => .getServices
  | getServiceDefaults => .getServiceDefaults
  | setServiceDefaults _ => .setServiceDefaults
  | getService _ _ => .getNodeService
  | setService _ _ _ => .setNodeService
  | getServiceFile _ _ _ => .getNodeServiceFile
  | setServiceFile _ _ _ => .setNodeServiceFile
  | serviceAction _ _ _ => .serviceAction

variable {ctx ctx' : SessionContext} {t : List Turn}

theorem method_of_bind {α : Type} {value : Except ConnectError α} {m : Method}
    {request : α → m.Request} {c : Call}
    (h : (value >>= fun a => .ok ⟨m, request a⟩) = Except.ok c) : c.method = m := by
  cases value with
  | error e => cases h
  | ok a =>
    cases h
    rfl

theorem call_method {o : Operation} {c : Call} (h : o.call ctx = .ok c) : c.method = o.method := by
  cases o with
  | setSessionOptions _ => exact method_of_bind h
  | editNode _ => exact method_of_bind h
  | createLink _ => exact method_of_bind h
  | getNodeWlanConfig _ => exact method_of_bind h
  | setNodeWlanConfig _ _ => exact method_of_bind h
  | setEmaneConfig _ => exact method_of_bind h
  | setEmaneModelConfig _ _ _ => exact method_of_bind h
  | _ =>
    cases h
    rfl

open Client in
/-- An operation says to the daemon its own call and nothing else. -/
theorem perform_turns {o : Operation} {r : Except ConnectError o.Result}
    (h : o.perform.Yields ctx t r ctx') :
    match o.call ctx with
    | .ok c => ∃ answer, t = [⟨c, answer⟩]
    | .error e => t = [] ∧ r = .error e := by
  cases o with
  | setState state =>
    obtain ⟨answer, ht, _⟩ := setState_yields h
    exact ⟨answer, ht⟩
  | getSession id =>
    refine makes_request _ (fun response => ?_) _ _ (onSession_yields.mp h).1
    split <;> simp
  | getSessionOptionMap =>
    have hop := (onSession_yields.mp h).1
    rw [Client.getSessionOptionMap, Client.getSessionOptions, bind_assoc] at hop
    exact makes_request _ (by simp) _ _ hop
  | setSessionOptions options =>
    exact makes_mapped (fun _ => makes_request _ (by simp)) _ _ (onSession_yields.mp h).1
  | editNode node =>
    exact makes_nodeId (fun _ => makes_request _ (by simp)) _ _ (onSession_yields.mp h).1
  | createLink link =>
    exact makes_mapped (fun _ => makes_request _ (by simp)) _ _ (onSession_yields.mp h).1
  | getNodeWlanConfig node =>
    exact makes_nodeId (fun _ => makes_request _ (by simp)) _ _ (onSession_yields.mp h).1
  | setNodeWlanConfig node config =>
    exact makes_nodeId (fun _ => makes_request _ (by simp)) _ _ (onSession_yields.mp h).1
  | setEmaneConfig options =>
    exact makes_mapped (fun _ => makes_request _ (by simp)) _ _ (onSession_yields.mp h).1
  | setEmaneModelConfig id model options =>
    exact makes_mapped (fun _ => makes_request _ (by simp)) _ _ (onSession_yields.mp h).1
  | getService id service =>
    refine makes_request _ (fun response => ?_) _ _ (onSession_yields.mp h).1
    split <;> simp
  | getServiceFile id service file =>
    refine makes_request _ (fun response => ?_) _ _ (onSession_yields.mp h).1
    split <;> simp
  | _ => exact makes_request _ (by simp) _ _ (onSession_yields.mp h).1

theorem perform_cases {o : Operation} {r : Except ConnectError o.Result}
    (h : o.perform.Yields ctx t r ctx') :
    (∃ e, o.call ctx = .error e ∧ t = [] ∧ r = .error e) ∨
      ∃ c answer, o.call ctx = .ok c ∧ t = [⟨c, answer⟩] := by
  have hturns := perform_turns h
  cases hcall : o.call ctx with
  | error e =>
    rw [hcall] at hturns
    exact .inl ⟨e, rfl, hturns⟩
  | ok c =>
    rw [hcall] at hturns
    obtain ⟨answer, ht⟩ := hturns
    exact .inr ⟨c, answer, rfl, ht⟩

/-- Only a change of state touches the context. -/
theorem perform_context {o : Operation} {r : Except ConnectError o.Result}
    (h : o.perform.Yields ctx t r ctx') (ho : ∀ state, o ≠ .setState state) : ctx' = ctx := by
  cases o with
  | setState state => exact absurd rfl (ho state)
  | _ => exact (Client.onSession_yields.mp h).2

end Operation

end EmuControl
