import EmuControl.Daemon.Recording
import EmuControl.Proofs.StartPlan
import EmuControl.Proofs.TopologyValidation
import EmuControl.Proofs.Workflow

/-!
# Starting a valid topology

With a daemon that obliges in everything, only the client itself can keep a topology from being
started. A valid topology leaves one reason for that: the mask of an IPv6 address that holds no
integer. `Topology.offence?` does not look at masks, so such a topology passes, and its start breaks
off after the daemon has been told of everything before the bad link.
-/
namespace EmuControl

open Wire Workflow

/-- The daemon completes every call, accepts whatever it may refuse, and gives a context whenever it
is asked for a session. -/
structure Obliging {σ : Type} (world : World σ) : Prop where
  accepts : ∀ c s, (Turn.mk c (world (.call c) s).1).isPositive = true
  opens : ∀ sessionId s,
    (Turn.mk (opening sessionId) (world (.call (opening sessionId)) s).1).context?.isSome = true

namespace Topology

/-- The nodes of a valid topology put nothing in the way of a start. -/
theorem nodes_unobstructed {t : Topology} (h : t.offence? = none) :
    (t.nodes.flatMap StartPlan.nodeSteps).findSome? StartPlan.Step.obstacle? = none := by
  rw [List.findSome?_eq_none_iff]
  intro step hmem
  obtain ⟨node, hnode, hstep⟩ := List.mem_flatMap.mp hmem
  unfold StartPlan.nodeSteps at hstep
  split at hstep
  · rename_i hwlan
    have hkind : node.kind = .wirelessLan := of_decide_eq_true hwlan
    obtain ⟨id, hid⟩ := Option.ne_none_iff_exists'.mp
      ((offence?_eq_none_iff.mp h).identified node hnode hkind)
    simp only [List.mem_cons, List.not_mem_nil, or_false] at hstep
    rcases hstep with rfl | rfl | rfl
    · simp [StartPlan.Step.obstacle?, hid]
    · simp [StartPlan.Step.obstacle?, hid]
    · rfl
  · rw [List.mem_singleton.mp hstep]
    rfl

end Topology

/-- The client's part of the start, when every answer is positive. -/
theorem Client.start_of_valid {topology : Topology} (hvalid : topology.offence? = none)
    {ctx ctx' : SessionContext} {t : List Turn} {r : Except ConnectError Bool}
    (h : (Client.start topology.nodes topology.links topology.hooks).Yields ctx t r ctx')
    (hpos : ∀ turn ∈ t, turn.isPositive = true) :
    match topology.links.findSome? Link.badMask? with
    | none => r = .ok true ∧ ctx'.state = .instantiation
    | some mask => r = .error (.mapping (.invalidNumber "ip6_mask" mask)) := by
  have hexec := StartPlan.start_follows _ _ _ ctx t r ctx' h
  have hr := hexec.result_of_isPositive hpos
  rw [StartPlan.plan_obstacle?, topology.nodes_unobstructed hvalid, Option.none_or] at hr
  cases hmask : topology.links.findSome? Link.badMask? with
  | some mask =>
    rw [hmask] at hr
    exact hr
  | none =>
    rw [hmask] at hr
    refine ⟨hr, ?_⟩
    rw [hexec.context_of_success hr]
    exact StartPlan.plan_after _ _ _ ctx

/-- Starting a valid topology with an obliging daemon leaves the session instantiated exactly when
every mask holds an integer. Otherwise the start fails on the first mask that does not, and there is
no other way for it to fail. -/
theorem start_of_valid_topology {σ : Type} {world : World σ} (hworld : Obliging world)
    (topology : Topology) (hvalid : topology.offence? = none) (sessionId : Option Int32) (s : σ) :
    let result := ((Workflow.start sessionId topology).run.run world s).1
    ((∃ ctx, result = .ok ctx ∧ ctx.state = .instantiation) ↔
        ∀ link ∈ topology.links, link.badMask? = none) ∧
      ∀ mask, topology.links.findSome? Link.badMask? = some mask →
        result = .error (.client (.mapping (.invalidNumber "ip6_mask" mask))) := by
  intro result
  let program := (Workflow.start sessionId topology).run
  have hturn : ∀ turn ∈ program.trace world s, turn.isPositive = true := by
    intro turn hmem
    obtain ⟨s', hs'⟩ := Program.mem_trace hmem
    have h := hworld.accepts turn.call s'
    rwa [← hs'] at h
  obtain ⟨turn, hcall, ⟨hnone, ht, _⟩ | ⟨ctx, u, r, ctx', hctx, hstart, ht, hresult⟩⟩ :=
    start_yields (program.yields_run world s)
  · -- the opening call always gives a context
    have hmem : turn ∈ program.trace world s := by rw [ht]; exact List.mem_singleton_self turn
    obtain ⟨s', hs'⟩ := Program.mem_trace hmem
    obtain ⟨c, answer⟩ := turn
    subst hcall
    have h := hworld.opens sessionId s'
    rw [← hs', hnone] at h
    cases h
  · have h := Client.start_of_valid hvalid hstart fun turn hmem =>
      hturn turn (by rw [ht]; exact List.mem_cons_of_mem _ hmem)
    rw [← List.findSome?_eq_none_iff]
    cases hmask : topology.links.findSome? Link.badMask? with
    | none =>
      rw [hmask] at h
      obtain ⟨rfl, hstate⟩ := h
      exact ⟨⟨fun _ => rfl, fun _ => ⟨ctx', hresult, hstate⟩⟩, by simp⟩
    | some mask =>
      rw [hmask] at h
      have hfailed : result = .error (.client (.mapping (.invalidNumber "ip6_mask" mask))) := by
        rw [show r = _ from h] at hresult
        exact hresult
      refine ⟨⟨?_, ?_⟩, ?_⟩
      · rintro ⟨_, hok, _⟩
        cases hok.symm.trans hfailed
      · intro hall
        cases hall
      · rintro _ ⟨⟩
        exact hfailed

/-- A daemon that accepts everything. -/
def acceptingDaemon : Daemon Unit := fun c s =>
  (.ok (Recording.plainResponse c.method c.request true 1), s)

theorem acceptingDaemon_obliging : Obliging (Machine.world acceptingDaemon) where
  accepts c _ := by
    obtain ⟨method, request⟩ := c
    cases method <;> rfl
  opens sessionId _ := by cases sessionId <;> rfl

/-- A link between two nodes whose first interface has the given mask. -/
def maskedPair (mask : String) : Topology where
  nodes := [{ id := some 1 }, { id := some 2 }]
  links := [{ nodeOne := some 1, nodeTwo := some 2, interfaceOne := some { ip6Mask := some mask } }]

theorem start_of_maskedPair :
    Obliging (Machine.world acceptingDaemon) ∧ (maskedPair "64").offence? = none ∧
      ∃ ctx, ((Workflow.start none (maskedPair "64")).run.run (Machine.world acceptingDaemon)
        { daemon := () }).1 = .ok ctx ∧ ctx.state = .instantiation := by
  have hvalid : (maskedPair "64").offence? = none := by decide
  have hstart := start_of_valid_topology acceptingDaemon_obliging _ hvalid none { daemon := () }
  exact ⟨acceptingDaemon_obliging, hvalid, hstart.1.mpr (by decide +kernel)⟩

/-- Being valid is not enough. The slash in the mask goes unnoticed until the link is to be added,
and by then the session holds both nodes. -/
theorem start_of_maskedPair_slash :
    let program := (Workflow.start none (maskedPair "/64")).run
    let world := Machine.world acceptingDaemon
    Obliging world ∧ (maskedPair "/64").offence? = none ∧
      (program.trace world { daemon := () }).map (fun turn => turn.call.method) =
        [.createSession, .setSessionState, .setSessionState, .addNode, .addNode] ∧
      (program.run world { daemon := () }).1 =
        .error (.client (.mapping (.invalidNumber "ip6_mask" "/64"))) := by
  intro program world
  exact ⟨acceptingDaemon_obliging, by decide, by decide +kernel, by decide +kernel⟩

end EmuControl
