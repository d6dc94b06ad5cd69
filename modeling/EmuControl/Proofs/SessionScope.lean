import EmuControl.CommandLine.Command
import EmuControl.Daemon.Recording
import EmuControl.Proofs.StartPlan
import EmuControl.Proofs.Workflow

/-!
# The session that a command touches

A command on a session that exists asks the daemon for the session it names. Whatever it asks for
afterwards is about the session that the daemon's snapshot names. The two ids are never compared, so
the command stays within its session exactly when the snapshot names that session too.
-/
namespace EmuControl

open Wire Workflow

/-- The session that a request is about. A request for all sessions, for a new one or for the
catalogue of services is about none. -/
def Wire.Call.sessionId? : Call → Option Int32
  | ⟨.createSession, _⟩ | ⟨.getSessions, _⟩ | ⟨.openXml, _⟩ | ⟨.getServices, _⟩ => none
  | ⟨.deleteSession, r⟩ | ⟨.getSession, r⟩ | ⟨.setSessionState, r⟩ | ⟨.getSessionOptions, r⟩
  | ⟨.setSessionOptions, r⟩ | ⟨.getSessionLocation, r⟩ | ⟨.setSessionLocation, r⟩ | ⟨.saveXml, r⟩
  | ⟨.addNode, r⟩ | ⟨.editNode, r⟩ | ⟨.deleteNode, r⟩ | ⟨.addLink, r⟩ | ⟨.editLink, r⟩
  | ⟨.getHooks, r⟩ | ⟨.addHook, r⟩ | ⟨.getMobilityConfigs, r⟩ | ⟨.getMobilityConfig, r⟩
  | ⟨.setMobilityConfig, r⟩ | ⟨.mobilityAction, r⟩ | ⟨.getWlanConfig, r⟩ | ⟨.setWlanConfig, r⟩
  | ⟨.getEmaneConfig, r⟩ | ⟨.setEmaneConfig, r⟩ | ⟨.getEmaneModels, r⟩
  | ⟨.getEmaneModelConfig, r⟩ | ⟨.setEmaneModelConfig, r⟩ | ⟨.getServiceDefaults, r⟩
  | ⟨.setServiceDefaults, r⟩ | ⟨.getNodeService, r⟩ | ⟨.setNodeService, r⟩
  | ⟨.getNodeServiceFile, r⟩ | ⟨.setNodeServiceFile, r⟩ | ⟨.serviceAction, r⟩ =>
    some r.sessionId

/-- Something is asked for, and all of it is about the session. -/
def Within (sessionId : Int32) (t : List Turn) : Prop :=
  t ≠ [] ∧ ∀ turn ∈ t, turn.call.sessionId? = some sessionId

theorem within_singleton {sessionId : Int32} {turn : Turn}
    (h : turn.call.sessionId? = some sessionId) : Within sessionId [turn] := by
  refine ⟨List.cons_ne_nil _ _, ?_⟩
  intro turn' hmem
  rw [List.mem_singleton.mp hmem]
  exact h

theorem StartPlan.Step.Requests.sessionId? {sessionId : Int32} {step : StartPlan.Step} {c : Call}
    (h : step.Requests sessionId c) : c.sessionId? = some sessionId := by
  cases h <;> rfl

theorem StartPlan.Executes.sessionId? {ctx ctx' : SessionContext} {steps : List Step}
    {t : List Turn} {r : Except ConnectError Bool} (h : Executes ctx steps t r ctx') :
    ∀ turn ∈ t, turn.call.sessionId? = some ctx.id := by
  induction h with
  | done ctx => simp
  | blocked _ => simp
  | failed e hc => exact (within_singleton hc.sessionId?).2
  | refused hc _ => exact (within_singleton hc.sessionId?).2
  | accepted hc _ _ ih =>
    intro turn hmem
    rcases List.mem_cons.mp hmem with rfl | hmem
    · exact hc.sessionId?
    · rw [ih turn hmem, Step.after_id]

theorem start_within {nodes : List Node} {links : List Link} {hooks : List Hook}
    {ctx ctx' : SessionContext} {t : List Turn} {r : Except ConnectError Bool}
    (h : (Client.start nodes links hooks).Yields ctx t r ctx') : Within ctx.id t := by
  have hexec := StartPlan.start_follows nodes links hooks ctx t r ctx' h
  refine ⟨?_, hexec.sessionId?⟩
  -- nothing is in the way of the first step
  rintro rfl
  cases hexec with
  | blocked ho => cases ho

theorem setState_within {state : SessionState} {ctx ctx' : SessionContext} {t : List Turn}
    {r : Except ConnectError Bool} (h : (Client.setState state).Yields ctx t r ctx') :
    Within ctx.id t := by
  obtain ⟨answer, rfl, _⟩ := Client.setState_yields h
  exact within_singleton rfl

theorem stop_within {ctx ctx' : SessionContext} {t : List Turn} {r : Except ConnectError Bool}
    (h : Client.stop.Yields ctx t r ctx') : Within ctx.id t :=
  setState_within (StartPlan.report_bind_yields h)

/-- What a command may say to the daemon about the session it names. -/
inductive Attached (sessionId : Int32) : List Turn → Prop
  | unreached : Attached sessionId []
  | unanswered {turn : Turn} : turn.call = ⟨.getSession, { sessionId }⟩ → turn.context? = none →
      Attached sessionId [turn]
  | working {turn : Turn} {ctx : SessionContext} {t : List Turn} :
      turn.call = ⟨.getSession, { sessionId }⟩ → turn.context? = some ctx → Within ctx.id t →
      Attached sessionId (turn :: t)

/-- The session that the answer to the first call names. -/
def namedFirst? (t : List Turn) : Option Int32 :=
  t.head?.bind fun turn => turn.context?.map SessionContext.id

theorem namedFirst?_cons (turn : Turn) (t : List Turn) :
    namedFirst? (turn :: t) = turn.context?.map SessionContext.id :=
  rfl

namespace Attached

variable {sessionId : Int32} {t : List Turn}

theorem call_of_head (h : Attached sessionId t) :
    ∀ turn ∈ t.head?, turn.call = ⟨.getSession, { sessionId }⟩ := by
  cases h with
  | unreached => simp
  | unanswered hcall _ =>
    rintro turn ⟨⟩
    exact hcall
  | working hcall _ _ =>
    rintro turn ⟨⟩
    exact hcall

theorem sessionId?_of_tail (h : Attached sessionId t) :
    ∀ turn ∈ t.tail, turn.call.sessionId? = namedFirst? t := by
  cases h with
  | unreached => simp
  | unanswered _ _ => simp
  | working _ hctx hwithin =>
    intro turn hmem
    rw [namedFirst?_cons, hctx]
    exact hwithin.2 turn hmem

/-- When the answer names another session, some later request is about that one. -/
theorem stays_iff (h : Attached sessionId t) :
    (∀ turn ∈ t, ∀ n ∈ turn.call.sessionId?, n = sessionId) ↔
      ∀ n ∈ namedFirst? t, n = sessionId := by
  constructor
  · intro hstays n hn
    cases h with
    | unreached => cases hn
    | unanswered _ hnone =>
      rw [namedFirst?_cons, hnone] at hn
      cases hn
    | working _ hctx hwithin =>
      rw [namedFirst?_cons, hctx] at hn
      cases hn
      obtain ⟨next, hnext⟩ := List.exists_mem_of_ne_nil _ hwithin.1
      exact hstays next (List.mem_cons_of_mem _ hnext) _ (hwithin.2 next hnext)
  · intro hnamed turn hmem n hn
    have hfirst : turn ∈ t.head? → n = sessionId := by
      intro hhead
      rw [h.call_of_head turn hhead] at hn
      cases hn
      rfl
    cases h with
    | unreached => cases hmem
    | unanswered _ _ =>
      rw [List.mem_singleton.mp hmem] at hfirst
      exact hfirst rfl
    | working _ hctx hwithin =>
      rcases List.mem_cons.mp hmem with rfl | hmem
      · exact hfirst rfl
      · rw [hwithin.2 turn hmem] at hn
        refine hnamed n ?_
        rw [namedFirst?_cons, hctx]
        exact hn

end Attached

namespace Workflow

variable {α β : Type}

/-- A workflow that attaches first and then works on the context it got. -/
theorem attach_bind_attached {sessionId : Int32} {k : SessionContext → WorkflowM α}
    (hk : ∀ ctx t x, (k ctx).run.Yields t x → Within ctx.id t) {t : List Turn}
    {x : Except WorkflowError α} (h : (attach sessionId >>= k).run.Yields t x) :
    Attached sessionId t := by
  obtain ⟨turn, hcall, ⟨hnone, rfl, _⟩ | ⟨ctx, u, hctx, hu, rfl⟩⟩ :=
    (attach_opens sessionId).bind_yields h
  · exact .unanswered hcall hnone
  · exact .working hcall hctx (hk ctx u x hu)

theorem onContext_within {ctx : SessionContext} {op : SessionM α}
    {k : α × SessionContext → WorkflowM β}
    (hop : ∀ t r ctx', op.Yields ctx t r ctx' → Within ctx.id t) (hk : ∀ a, Program.Silent (k a))
    {t : List Turn} {x : Except WorkflowError β} (h : (onContext ctx op >>= k).run.Yields t x) :
    Within ctx.id t := by
  rcases onContext_bind_yields h with ⟨e, ctx', h₁, _⟩ | ⟨t₁, a, ctx', t₂, h₁, h₂, rfl⟩
  · exact hop t _ ctx' h₁
  · rw [hk (a, ctx') t₂ x h₂, List.append_nil]
    exact hop t₁ _ ctx' h₁

theorem ofClient_within {ctx : SessionContext} {op : ClientM α} {c : Call}
    (hop : Client.Makes op (.ok c)) (hc : c.sessionId? = some ctx.id) {k : α → WorkflowM β}
    (hk : ∀ a, Program.Silent (k a)) {t : List Turn} {x : Except WorkflowError β}
    (h : (ofClient op >>= k).run.Yields t x) : Within ctx.id t := by
  have hfirst : ∀ u y, (ofClient op).run.Yields u y → Within ctx.id u := by
    intro u y hu
    obtain ⟨z, hz, _⟩ := ofClient_yields.mp hu
    obtain ⟨answer, rfl⟩ := hop u z hz
    exact within_singleton hc
  rcases Program.yields_except_bind.mp h with ⟨e, h₁, _⟩ | ⟨t₁, a, t₂, h₁, h₂, rfl⟩
  · exact hfirst t _ h₁
  · rw [hk a t₂ x h₂, List.append_nil]
    exact hfirst t₁ _ h₁

@[simp] theorem silent_writeFile (name : String) (contents : Bytes) :
    Program.Silent (writeFile name contents) := by
  intro t x h
  obtain ⟨t₁, answer, t₂, h₁, h₂, rfl⟩ := Program.yields_bind.mp h
  rw [Program.yields_perform.mp h₁]
  cases answer <;> exact h₂.1

theorem start_attached {sessionId : Int32} {topology : Topology} {t : List Turn}
    {x : Except WorkflowError SessionContext}
    (h : (start (some sessionId) topology).run.Yields t x) : Attached sessionId t := by
  obtain ⟨turn, hcall, ⟨hnone, rfl, _⟩ | ⟨ctx, u, r, ctx', hctx, hu, rfl, _⟩⟩ := start_yields h
  · exact .unanswered hcall hnone
  · exact .working hcall hctx (start_within hu)

theorem stop_attached {sessionId : Int32} {t : List Turn} {x : Except WorkflowError SessionContext}
    (h : (stop sessionId).run.Yields t x) : Attached sessionId t := by
  refine attach_bind_attached (fun ctx u y hu => ?_) h
  refine onContext_within (fun _ _ _ => stop_within) (fun a => ?_) hu
  simp

theorem setState_attached {sessionId : Int32} {state : SessionState} {t : List Turn}
    {x : Except WorkflowError SessionContext} (h : (setState sessionId state).run.Yields t x) :
    Attached sessionId t := by
  refine attach_bind_attached (fun ctx u y hu => ?_) h
  refine onContext_within (fun _ _ _ => setState_within) (fun a => ?_) hu
  simp

theorem saveXml_attached {sessionId : Int32} {path : String} {t : List Turn}
    {x : Except WorkflowError Nat} (h : (saveXml sessionId path).run.Yields t x) :
    Attached sessionId t := by
  refine attach_bind_attached (fun ctx u y hu => ?_) h
  exact ofClient_within (Client.makes_request _ (by simp)) rfl (by simp) hu

end Workflow

namespace CommandLine

@[simp] theorem silent_say (line : String) : Program.Silent (say line) :=
  Program.silent_lift (Program.quiet_perform fun _ => rfl)

theorem silent_connect (e : Network.Endpoint) : Program.Silent e.connect := by
  refine Program.silent_bind (Program.silent_lift (Program.quiet_log _ _ _)) fun _ => ?_
  split
  · exact Program.silent_throw _
  · exact Program.silent_lift (Program.quiet_log _ _ _)

/-- What a command says to the daemon are its steps, or nothing when the endpoint is none. -/
theorem Command.program_yields {c : Command} {e : Network.Endpoint} {t : List Turn}
    {x : Except WorkflowError Unit} (h : (c.program e).run.Yields t x) :
    t = [] ∨ c.steps.run.Yields t x := by
  unfold Command.program at h
  split at h
  · rcases Program.yields_except_bind.mp h with ⟨_, h₁, _⟩ | ⟨t₁, _, t₂, h₁, h₂, rfl⟩
    · obtain ⟨y, hy, _⟩ := ofClient_yields.mp h₁
      exact .inl (silent_connect e t y hy)
    · obtain ⟨y, hy, _⟩ := ofClient_yields.mp h₁
      rw [silent_connect e t₁ y hy]
      exact .inr h₂
  · exact .inr h

theorem Command.execute_yields {c : Command} {e : Network.Endpoint} {t : List Turn} {status : Nat}
    (h : (c.execute e).Yields t status) : ∃ x, (c.program e).run.Yields t x := by
  obtain ⟨t₁, x, t₂, h₁, h₂, rfl⟩ := Program.yields_bind.mp h
  refine ⟨x, ?_⟩
  have hquiet : t₂ = [] := by
    cases x with
    | ok _ => exact h₂.1
    | error e =>
      obtain ⟨t₃, _, _, h₃, ⟨rfl, _⟩, rfl⟩ := Program.yields_bind.mp h₂
      rw [Program.yields_perform.mp h₃]
      rfl
  rwa [hquiet, List.append_nil]

/-- A command that attaches, asks the client for one thing, and then only talks to the user. -/
theorem Command.execute_attached {c : Command} {sessionId : Int32} {α : Type}
    {op : SessionContext → ClientM α} {call : SessionContext → Call} {k : α → WorkflowM Unit}
    (hop : ∀ ctx, Client.Makes (op ctx) (.ok (call ctx)))
    (hcall : ∀ ctx, (call ctx).sessionId? = some ctx.id) (hk : ∀ a, Program.Silent (k a))
    (hsteps : c.steps = do
      let ctx ← attach sessionId
      let a ← ofClient (op ctx)
      k a)
    {e : Network.Endpoint} {t : List Turn} {status : Nat} (h : (c.execute e).Yields t status) :
    Attached sessionId t := by
  obtain ⟨x, hx⟩ := execute_yields h
  rcases program_yields hx with rfl | hx
  · exact .unreached
  · rw [hsteps] at hx
    exact attach_bind_attached (fun ctx u y hu => ofClient_within (hop ctx) (hcall ctx) hk hu) hx

end CommandLine

/-- A command on a session that exists. -/
inductive SessionCommand where
  | start (topology : Topology)
  | stop
  | setState (state : SessionState)
  | saveXml (path : String)
  | listHooks
  | showOptions
  | showLocation

namespace SessionCommand

abbrev Result : SessionCommand → Type
  | start _ | stop | setState _ => Except WorkflowError SessionContext
  | saveXml _ => Except WorkflowError Nat
  | listHooks | showOptions | showLocation => Nat

/-- The command for a session. The last three are those of the command line, on the daemon at an
endpoint. -/
def program (e : Network.Endpoint) (sessionId : Int32) : (c : SessionCommand) → Program c.Result
  | start topology => (Workflow.start (some sessionId) topology).run
  | stop => (Workflow.stop sessionId).run
  | setState state => (Workflow.setState sessionId state).run
  | saveXml path => (Workflow.saveXml sessionId path).run
  | listHooks => (CommandLine.Command.listHooks sessionId).execute e
  | showOptions => (CommandLine.Command.showOptions sessionId).execute e
  | showLocation => (CommandLine.Command.showLocation sessionId).execute e

open CommandLine Client in
theorem program_attached {c : SessionCommand} {e : Network.Endpoint} {sessionId : Int32}
    {t : List Turn} {x : c.Result} (h : (c.program e sessionId).Yields t x) :
    Attached sessionId t := by
  cases c with
  | start topology => exact start_attached h
  | stop => exact stop_attached h
  | setState state => exact setState_attached h
  | saveXml path => exact saveXml_attached h
  | listHooks =>
    have hop : ∀ ctx, Makes (getHooks ctx) (.ok ⟨.getHooks, { sessionId := ctx.id }⟩) :=
      fun ctx => makes_request _ (by simp)
    exact Command.execute_attached hop (fun _ => rfl) (fun _ => silent_say _) rfl h
  | showOptions =>
    have hop : ∀ ctx, Makes (getSessionOptions ctx)
        (.ok ⟨.getSessionOptions, { sessionId := ctx.id }⟩) :=
      fun ctx => makes_request _ (by simp)
    exact Command.execute_attached hop (fun _ => rfl) (fun _ => silent_say _) rfl h
  | showLocation =>
    have hop : ∀ ctx, Makes (getLocation ctx)
        (.ok ⟨.getSessionLocation, { sessionId := ctx.id }⟩) :=
      fun ctx => makes_request _ (by simp)
    exact Command.execute_attached hop (fun _ => rfl) (fun _ => silent_say _) rfl h

end SessionCommand

/-- In every world, a command first asks for the session it names, and every later request is about
the session that the answer names. So a command touches no session but its own exactly when the
answer names no other one. -/
theorem command_stays_within_session {σ : Type} (world : World σ) (s : σ) (c : SessionCommand)
    (e : Network.Endpoint) (sessionId : Int32) :
    let t := (c.program e sessionId).trace world s
    (∀ turn ∈ t.head?, turn.call = ⟨.getSession, { sessionId }⟩) ∧
      (∀ turn ∈ t.tail, turn.call.sessionId? = namedFirst? t) ∧
      ((∀ turn ∈ t, ∀ n ∈ turn.call.sessionId?, n = sessionId) ↔
        ∀ n ∈ namedFirst? t, n = sessionId) := by
  intro t
  have h : Attached sessionId t :=
    SessionCommand.program_attached ((c.program e sessionId).yields_run world s)
  exact ⟨h.call_of_head, h.sessionId?_of_tail, h.stays_iff⟩

/-- A daemon that answers for the seventh session, whichever it is asked for. -/
def strayDaemon : Daemon Unit
  | ⟨.getSession, _⟩, s =>
    (.ok { session := some { id := 7, state := 1, nodes := [], links := [] } }, s)
  | c, s => (.ok (Recording.plainResponse c.method c.request true 1), s)

/-- Asked to stop the third session, the client shuts down the seventh. -/
theorem stop_strays :
    ((SessionCommand.stop.program ⟨"localhost", Network.defaultPort⟩ 3).trace
        (Machine.world strayDaemon) { daemon := () }).map
      (fun turn => (turn.call.method, turn.call.sessionId?)) =
      [(.getSession, some 3), (.setSessionState, some 7)] := by
  decide +kernel

end EmuControl
