import EmuControl.Proofs.Operation
import EmuControl.Workflow.Session

/-!
# Workflows and their calls

A workflow takes operations of the client as they are and only puts their errors into its own. It
begins by attaching to a session or by creating one, and works on the context that this gives. The
context comes from the daemon's answer, not from the request: `Turn.context?` reads it off.
-/
namespace EmuControl

open Wire

/-- The context that the answer gives, when the call is for a session and the answer maps. -/
def Turn.context? : Turn → Option SessionContext
  | ⟨⟨.createSession, _⟩, .ok response⟩ =>
    (SessionState.ofNumber response.state).toOption.map fun state => ⟨response.sessionId, state⟩
  | ⟨⟨.getSession, _⟩, .ok response⟩ =>
    response.session.bind fun wire =>
      (Session.ofWire wire).toOption.map fun session => ⟨session.id, session.state⟩
  | _ => none

namespace Workflow

variable {α β : Type}

theorem ofClient_yields {op : ClientM α} {t : List Turn} {x : Except WorkflowError α} :
    (ofClient op).run.Yields t x ↔ ∃ y, op.run.Yields t y ∧ x = y.mapError .client := by
  change (op.run >>= fun y => _).Yields t x ↔ _
  rw [Program.yields_bind]
  constructor
  · rintro ⟨t₁, y, t₂, h₁, h₂, rfl⟩
    cases y with
    | ok a =>
      obtain ⟨rfl, rfl⟩ := h₂
      exact ⟨.ok a, by rwa [List.append_nil], rfl⟩
    | error e =>
      obtain ⟨rfl, rfl⟩ := h₂
      exact ⟨.error e, by rwa [List.append_nil], rfl⟩
  · rintro ⟨y, h, rfl⟩
    refine ⟨t, y, [], h, ?_, (List.append_nil t).symm⟩
    cases y <;> exact ⟨rfl, rfl⟩

theorem onContext_yields {ctx : SessionContext} {op : SessionM α} {t : List Turn}
    {x : Except WorkflowError (α × SessionContext)} (h : (onContext ctx op).run.Yields t x) :
    ∃ y ctx', op.Yields ctx t y ctx' ∧ x = (y.mapError .client).map fun a => (a, ctx') := by
  change (op.run.run ctx >>= fun y => _).Yields t x at h
  obtain ⟨t₁, ⟨y, ctx'⟩, t₂, h₁, h₂, rfl⟩ := Program.yields_bind.mp h
  refine ⟨y, ctx', ?_⟩
  cases y with
  | ok a =>
    obtain ⟨rfl, rfl⟩ := h₂
    exact ⟨by rwa [List.append_nil], rfl⟩
  | error e =>
    obtain ⟨rfl, rfl⟩ := h₂
    exact ⟨by rwa [List.append_nil], rfl⟩

/-- What does not talk to the daemon and cannot fail is passed over. -/
theorem lift_bind_yields {p : Program α} (hp : p.Quiet) {k : WorkflowM β} {t : List Turn}
    {x : Except WorkflowError β} (h : (ExceptT.lift p >>= fun _ => k).run.Yields t x) :
    k.run.Yields t x := by
  rcases Program.yields_except_bind.mp h with ⟨e, h₁, _⟩ | ⟨t₁, _, t₂, h₁, h₂, rfl⟩
  · obtain ⟨_, _, he⟩ := Program.yields_except_lift.mp h₁
    cases he
  · rw [Program.silent_lift hp t₁ _ h₁]
    exact h₂

theorem onContext_bind_yields {ctx : SessionContext} {op : SessionM α}
    {k : α × SessionContext → WorkflowM β} {t : List Turn} {x : Except WorkflowError β}
    (h : (onContext ctx op >>= k).run.Yields t x) :
    (∃ e ctx', op.Yields ctx t (.error e) ctx' ∧ x = .error (.client e)) ∨
      ∃ t₁ a ctx' t₂, op.Yields ctx t₁ (.ok a) ctx' ∧ (k (a, ctx')).run.Yields t₂ x ∧
        t = t₁ ++ t₂ := by
  rcases Program.yields_except_bind.mp h with ⟨e, h₁, rfl⟩ | ⟨t₁, ⟨a, ctx₁⟩, t₂, h₁, h₂, rfl⟩
  · obtain ⟨y, ctx', hy, he⟩ := onContext_yields h₁
    cases y with
    | ok a => cases he
    | error e' =>
      cases he
      exact .inl ⟨e', ctx', hy, rfl⟩
  · obtain ⟨y, ctx', hy, ha⟩ := onContext_yields h₁
    cases y with
    | error e => cases ha
    | ok a' =>
      cases ha
      exact .inr ⟨t₁, a, ctx₁, t₂, hy, h₂, rfl⟩

/-- The operation makes one call, and what it gives is the context in the answer. -/
def Opens (op : WorkflowM SessionContext) (call : Call) : Prop :=
  ∀ t x, op.run.Yields t x → ∃ turn, t = [turn] ∧ turn.call = call ∧ x.toOption = turn.context?

theorem createSession_opens :
    Opens (ofClient Client.createSession) ⟨.createSession, { sessionId := none }⟩ := by
  intro t x h
  obtain ⟨y, hy, rfl⟩ := ofClient_yields.mp h
  rcases Client.request_bind_yields.mp hy with ⟨e, rfl, rfl⟩ | ⟨response, u, hu, rfl⟩
  · exact ⟨_, rfl, rfl, rfl⟩
  · rcases Client.mapped_bind_yields hu with ⟨e, hs, rfl, rfl⟩ | ⟨state, hs, hu⟩
    · exact ⟨_, rfl, rfl, by rw [Turn.context?, hs]; rfl⟩
    · obtain ⟨rfl, rfl⟩ := Client.note_bind_yields.mp hu
      exact ⟨_, rfl, rfl, by rw [Turn.context?, hs]; rfl⟩

theorem getSession_yields {id : Int32} {t : List Turn} {x : Except ConnectError Session}
    (h : (Client.getSession id).run.Yields t x) :
    ∃ turn, t = [turn] ∧ turn.call = ⟨.getSession, { sessionId := id }⟩ ∧
      turn.context? = x.toOption.map fun session => ⟨session.id, session.state⟩ := by
  rcases Client.request_bind_yields.mp h with ⟨e, rfl, rfl⟩ | ⟨⟨session⟩, u, hu, rfl⟩
  · exact ⟨_, rfl, rfl, rfl⟩
  · cases session with
    | none =>
      obtain ⟨rfl, rfl⟩ := hu
      exact ⟨_, rfl, rfl, rfl⟩
    | some wire =>
      rcases Client.mapped_bind_yields hu with ⟨e, hs, rfl, rfl⟩ | ⟨session, hs, hu⟩
      · exact ⟨_, rfl, rfl, by rw [Turn.context?, Option.bind_some, hs]; rfl⟩
      · obtain ⟨rfl, rfl⟩ := Client.note_bind_yields.mp hu
        exact ⟨_, rfl, rfl, by rw [Turn.context?, Option.bind_some, hs]; rfl⟩

theorem attach_opens (id : Int32) : Opens (attach id) ⟨.getSession, { sessionId := id }⟩ := by
  intro t x h
  rcases Program.yields_except_bind.mp h with ⟨e, h₁, rfl⟩ | ⟨t₁, session, t₂, h₁, h₂, rfl⟩
  · obtain ⟨y, hy, he⟩ := ofClient_yields.mp h₁
    obtain ⟨turn, rfl, hcall, hctx⟩ := getSession_yields hy
    cases y with
    | ok session => cases he
    | error e => exact ⟨turn, rfl, hcall, hctx.symm⟩
  · obtain ⟨y, hy, hok⟩ := ofClient_yields.mp h₁
    obtain ⟨turn, rfl, hcall, hctx⟩ := getSession_yields hy
    obtain ⟨rfl, rfl⟩ := h₂
    cases y with
    | error e => cases hok
    | ok session' =>
      cases hok
      exact ⟨turn, rfl, hcall, hctx.symm⟩

/-- Without a context the workflow ends in an error; otherwise it goes on with that context. -/
theorem Opens.bind_yields {op : WorkflowM SessionContext} {call : Call} (hop : Opens op call)
    {k : SessionContext → WorkflowM α} {t : List Turn} {x : Except WorkflowError α}
    (h : (op >>= k).run.Yields t x) :
    ∃ turn, turn.call = call ∧
      ((turn.context? = none ∧ t = [turn] ∧ ∃ e, x = .error e) ∨
        ∃ ctx u, turn.context? = some ctx ∧ (k ctx).run.Yields u x ∧ t = turn :: u) := by
  rcases Program.yields_except_bind.mp h with ⟨e, h₁, rfl⟩ | ⟨t₁, ctx, u, h₁, h₂, rfl⟩
  · obtain ⟨turn, rfl, hcall, hctx⟩ := hop t _ h₁
    exact ⟨turn, hcall, .inl ⟨hctx.symm, rfl, e, rfl⟩⟩
  · obtain ⟨turn, rfl, hcall, hctx⟩ := hop t₁ _ h₁
    exact ⟨turn, hcall, .inr ⟨ctx, u, hctx.symm, h₂, rfl⟩⟩

/-- The call with which a start begins. -/
def opening : Option Int32 → Call
  | some sessionId => ⟨.getSession, { sessionId }⟩
  | none => ⟨.createSession, { sessionId := none }⟩

/-- What a start comes to when the client leaves it so. -/
def startOutcome : Except ConnectError Bool → SessionContext → Except WorkflowError SessionContext
  | .ok true, ctx => .ok ctx
  | .ok false, ctx => .error (.rejected
      ("session " ++ Number.writeInt32 ctx.id ++ " stopped in state " ++ ctx.state.name))
  | .error e, _ => .error (.client e)

theorem Opens.start_yields {op : WorkflowM SessionContext} {call : Call} (hop : Opens op call)
    {topology : Topology} {t : List Turn} {x : Except WorkflowError SessionContext}
    (h : (do
      let ctx ← op
      let (started, ctx) ← onContext ctx (Client.start topology.nodes topology.links topology.hooks)
      if started then
        ExceptT.lift (Program.log .info .workflow
          ("Session " ++ Number.writeInt32 ctx.id ++ " instantiated"))
        return ctx
      else
        throw (.rejected
          ("session " ++ Number.writeInt32 ctx.id ++ " stopped in state " ++ ctx.state.name)) :
      WorkflowM SessionContext).run.Yields t x) :
    ∃ turn, turn.call = call ∧
      ((turn.context? = none ∧ t = [turn] ∧ ∃ e, x = .error e) ∨
        ∃ ctx u r ctx', turn.context? = some ctx ∧
          (Client.start topology.nodes topology.links topology.hooks).Yields ctx u r ctx' ∧
          t = turn :: u ∧ x = startOutcome r ctx') := by
  obtain ⟨turn, hcall, hnone | ⟨ctx, u, hctx, hu, rfl⟩⟩ := hop.bind_yields h
  · exact ⟨turn, hcall, .inl hnone⟩
  · refine ⟨turn, hcall, .inr ⟨ctx, u, ?_⟩⟩
    rcases onContext_bind_yields hu with ⟨e, ctx', hr, rfl⟩ | ⟨t₁, started, ctx', t₂, hr, h₂, rfl⟩
    · exact ⟨.error e, ctx', hctx, hr, rfl, rfl⟩
    · refine ⟨.ok started, ctx', hctx, ?_⟩
      cases started with
      | false =>
        obtain ⟨rfl, rfl⟩ := h₂
        exact ⟨by rwa [List.append_nil], rfl, rfl⟩
      | true =>
        obtain ⟨rfl, rfl⟩ := lift_bind_yields (Program.quiet_log _ _ _) h₂
        exact ⟨by rwa [List.append_nil], rfl, rfl⟩

/-- Either the opening call gives no context, or the client starts the topology in the context that
the call gives. -/
theorem start_yields {sessionId : Option Int32} {topology : Topology} {t : List Turn}
    {x : Except WorkflowError SessionContext} (h : (start sessionId topology).run.Yields t x) :
    ∃ turn, turn.call = opening sessionId ∧
      ((turn.context? = none ∧ t = [turn] ∧ ∃ e, x = .error e) ∨
        ∃ ctx u r ctx', turn.context? = some ctx ∧
          (Client.start topology.nodes topology.links topology.hooks).Yields ctx u r ctx' ∧
          t = turn :: u ∧ x = startOutcome r ctx') := by
  cases sessionId with
  | none => exact createSession_opens.start_yields h
  | some id => exact (attach_opens id).start_yields h

end Workflow

end EmuControl
