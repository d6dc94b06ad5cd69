import EmuControl.Proofs.LinkMapping
import EmuControl.Proofs.Operation
import EmuControl.Proofs.OptionSchema
import Mathlib.Data.List.Forall2

/-!
# The plan of a start

A start has a plan, which is known before the first call: a list of steps with one request each.
`Executes` says how a plan is carried out. Steps are taken in order, and the first one that is
blocked, fails or is refused ends the matter. A step is blocked when its request cannot be made up,
and then nothing is said to the daemon about it.

That every start carries out its plan (`start_follows`) is proved once, operation by operation.
Everything else about a start is read off `Executes` by induction.
-/
namespace EmuControl.StartPlan

open Wire Client

/-- A step of a start, which makes one request. -/
inductive Step where
  | enter (state : SessionState)
  | addHook (hook : Hook)
  | readWlan (node : Node)
  | writeWlan (node : Node)
  | addNode (node : Node)
  | addLink (link : Link)

/-- The options of a wireless network are read and written back before its node is added. -/
def nodeSteps (node : Node) : List Step :=
  if node.isWlan then [.readWlan node, .writeWlan node, .addNode node] else [.addNode node]

def plan (nodes : List Node) (links : List Link) (hooks : List Hook) : List Step :=
  [.enter .definition, .enter .configuration] ++ hooks.map .addHook ++ nodes.flatMap nodeSteps ++
    links.map .addLink ++ [.enter .instantiation]

namespace Step

/-- The requests of a step in a session. Which options are written back is up to the daemon, which
was asked for them one step before. -/
inductive Requests (sessionId : Int32) : Step → Call → Prop
  | enter (state : SessionState) :
      Requests sessionId (.enter state) ⟨.setSessionState, { sessionId, state := state.number }⟩
  | addHook (hook : Hook) :
      Requests sessionId (.addHook hook) ⟨.addHook, { sessionId, hook := some hook.toWire }⟩
  | readWlan {node : Node} {nodeId : Int32} : node.id = some nodeId →
      Requests sessionId (.readWlan node) ⟨.getWlanConfig, { sessionId, nodeId }⟩
  | writeWlan {node : Node} {nodeId : Int32} (config : OptionMap) : node.id = some nodeId →
      Requests sessionId (.writeWlan node) ⟨.setWlanConfig, { sessionId, nodeId, config }⟩
  | addNode (node : Node) :
      Requests sessionId (.addNode node) ⟨.addNode, { sessionId, node := some node.toWire }⟩
  | addLink {link : Link} {wire : Wire.Link} : link.toWire = .ok wire →
      Requests sessionId (.addLink link) ⟨.addLink, { sessionId, link := some wire }⟩

/-- Why the request of a step cannot be made up. -/
def obstacle? : Step → Option ConnectError
  | readWlan node => node.id.elim (some (.missingNodeId "get_wlan_config")) fun _ => none
  | writeWlan node => node.id.elim (some (.missingNodeId "set_wlan_config")) fun _ => none
  | addLink link =>
    match link.toWire with
    | .ok _ => none
    | .error e => some (.mapping e)
  | _ => none

/-- The context once the step is taken. -/
def after (ctx : SessionContext) : Step → SessionContext
  | enter state => { ctx with state }
  | _ => ctx

@[simp] theorem after_id (ctx : SessionContext) (step : Step) : (step.after ctx).id = ctx.id := by
  cases step <;> rfl

theorem Requests.unobstructed {sessionId : Int32} {step : Step} {c : Call}
    (h : step.Requests sessionId c) : step.obstacle? = none := by
  cases h with
  | readWlan hid => simp [obstacle?, hid]
  | writeWlan _ hid => simp [obstacle?, hid]
  | addLink hw => simp [obstacle?, hw]
  | _ => rfl

theorem addLink_obstacle? (link : Link) : (addLink link).obstacle? =
    link.badMask?.map fun mask => .mapping (.invalidNumber "ip6_mask" mask) := by
  have h := link.toWire_blames
  rw [obstacle?]
  cases hbad : link.badMask? with
  | none =>
    rw [hbad] at h
    obtain ⟨wire, hw⟩ := h
    rw [hw]
    rfl
  | some mask =>
    rw [hbad] at h
    rw [show link.toWire = _ from h]
    rfl

end Step

/-- The first obstacle of a plan lies with its nodes or else with its links. -/
theorem plan_obstacle? (nodes : List Node) (links : List Link) (hooks : List Hook) :
    (plan nodes links hooks).findSome? Step.obstacle? =
      ((nodes.flatMap nodeSteps).findSome? Step.obstacle?).or
        ((links.findSome? Link.badMask?).map fun mask =>
          .mapping (.invalidNumber "ip6_mask" mask)) := by
  have hhooks : (hooks.map Step.addHook).findSome? Step.obstacle? = none := by
    rw [List.findSome?_eq_none_iff]
    intro step hmem
    obtain ⟨hook, _, rfl⟩ := List.mem_map.mp hmem
    rfl
  have hlinks : (links.map Step.addLink).findSome? Step.obstacle? =
      (links.findSome? Link.badMask?).map fun mask =>
        .mapping (.invalidNumber "ip6_mask" mask) := by
    rw [List.findSome?_map, List.map_findSome?]
    exact congrArg (fun f => links.findSome? f) (funext Step.addLink_obstacle?)
  unfold plan
  rw [List.findSome?_append, List.findSome?_append, List.findSome?_append, List.findSome?_append,
    hhooks, hlinks, Option.or_none]
  exact Option.or_none

/-- The steps before the first one whose request cannot be made up. -/
def feasible (steps : List Step) : List Step :=
  steps.takeWhile fun step => step.obstacle?.isNone

theorem feasible_cons {sessionId : Int32} {step : Step} {c : Call}
    (h : step.Requests sessionId c) (rest : List Step) :
    feasible (step :: rest) = step :: feasible rest :=
  List.takeWhile_cons_of_pos (by rw [h.unobstructed]; rfl)

theorem unobstructed_of_requests {sessionId : Int32} {steps : List Step} {calls : List Call}
    (h : List.Forall₂ (Step.Requests sessionId) steps calls) :
    ∀ step ∈ steps, step.obstacle? = none := by
  induction h with
  | nil => simp
  | cons hc _ ih =>
    intro step hmem
    rcases List.mem_cons.mp hmem with rfl | hmem
    · exact hc.unobstructed
    · exact ih step hmem

/-- Carrying out steps on a context: what is said and answered, what comes of it, and the context
that is left. -/
inductive Executes :
    SessionContext → List Step → List Turn → Except ConnectError Bool → SessionContext → Prop
  | done (ctx : SessionContext) : Executes ctx [] [] (.ok true) ctx
  | blocked {ctx : SessionContext} {step : Step} {rest : List Step} {e : ConnectError} :
      step.obstacle? = some e → Executes ctx (step :: rest) [] (.error e) ctx
  | failed {ctx : SessionContext} {step : Step} {rest : List Step} {c : Call} (e : ApiError) :
      step.Requests ctx.id c →
      Executes ctx (step :: rest) [⟨c, .error e⟩] (.error (.ofApi e)) ctx
  | refused {ctx : SessionContext} {step : Step} {rest : List Step} {c : Call}
      {response : c.method.Response} : step.Requests ctx.id c →
      c.method.isPositive response = false →
      Executes ctx (step :: rest) [⟨c, .ok response⟩] (.ok false) ctx
  | accepted {ctx ctx' : SessionContext} {step : Step} {rest : List Step} {c : Call}
      {response : c.method.Response} {t : List Turn} {r : Except ConnectError Bool} :
      step.Requests ctx.id c → c.method.isPositive response = true →
      Executes (step.after ctx) rest t r ctx' →
      Executes ctx (step :: rest) (⟨c, .ok response⟩ :: t) r ctx'

namespace Executes

variable {ctx ctx₁ ctx' : SessionContext} {first steps rest : List Step} {t t₁ t₂ : List Turn}
  {r : Except ConnectError Bool}

theorem append (h : Executes ctx first t₁ (.ok true) ctx₁)
    (k : Executes ctx₁ rest t₂ r ctx') : Executes ctx (first ++ rest) (t₁ ++ t₂) r ctx' := by
  generalize hr : Except.ok true = r₁ at h
  induction h with
  | done ctx => exact k
  | blocked _ => cases hr
  | failed _ _ => cases hr
  | refused _ _ => cases hr
  | accepted hc hp _ ih => exact .accepted hc hp (ih k hr)

theorem stop (h : Executes ctx first t r ctx') (hr : r ≠ .ok true) :
    Executes ctx (first ++ rest) t r ctx' := by
  induction h with
  | done ctx => exact absurd rfl hr
  | blocked ho => exact .blocked ho
  | failed e hc => exact .failed e hc
  | refused hc hp => exact .refused hc hp
  | accepted hc hp _ ih => exact .accepted hc hp (ih hr)

theorem id_eq (h : Executes ctx steps t r ctx') : ctx'.id = ctx.id := by
  induction h with
  | accepted _ _ _ ih => rw [ih, Step.after_id]
  | _ => rfl

/-- What is said is the beginning of the plan, as far as its requests can be made up. -/
theorem follows_feasible (h : Executes ctx steps t r ctx') :
    ∃ taken, taken <+: feasible steps ∧
      List.Forall₂ (Step.Requests ctx.id) taken (t.map Turn.call) := by
  induction h with
  | done ctx => exact ⟨[], List.nil_prefix, .nil⟩
  | blocked _ => exact ⟨[], List.nil_prefix, .nil⟩
  | failed e hc => exact ⟨[_], ⟨_, (feasible_cons hc _).symm⟩, .cons hc .nil⟩
  | refused hc _ => exact ⟨[_], ⟨_, (feasible_cons hc _).symm⟩, .cons hc .nil⟩
  | @accepted ctx ctx' step rest c response t r hc _ _ ih =>
    obtain ⟨taken, hpre, hall⟩ := ih
    rw [Step.after_id] at hall
    refine ⟨step :: taken, ?_, .cons hc hall⟩
    rw [feasible_cons hc]
    exact List.cons_prefix_cons.mpr ⟨rfl, hpre⟩

theorem isPositive_of_mem_dropLast (h : Executes ctx steps t r ctx') :
    ∀ turn ∈ t.dropLast, turn.isPositive = true := by
  induction h with
  | @accepted ctx ctx' step rest c response t r _ hp _ ih =>
    intro turn hmem
    cases t with
    | nil => cases hmem
    | cons next t =>
      rcases List.mem_cons.mp hmem with rfl | hmem
      · exact hp
      · exact ih turn hmem
  | _ => simp

/-- A run that goes well has taken every step. -/
theorem complete (h : Executes ctx steps t r ctx') (hr : r = .ok true) :
    List.Forall₂ (Step.Requests ctx.id) steps (t.map Turn.call) := by
  induction h with
  | done ctx => exact .nil
  | blocked _ => cases hr
  | failed _ _ => cases hr
  | refused _ _ => cases hr
  | accepted hc _ _ ih =>
    have hall := ih hr
    rw [Step.after_id] at hall
    exact .cons hc hall

/-- Nothing but an obstacle or an answer that is not positive keeps a run from going well. -/
theorem succeeds_iff (h : Executes ctx steps t r ctx') :
    r = .ok true ↔
      (∀ step ∈ steps, step.obstacle? = none) ∧ ∀ turn ∈ t, turn.isPositive = true := by
  induction h with
  | done ctx => simp
  | blocked ho => simp [ho]
  | failed e hc => simp [Turn.isPositive]
  | refused hc hp => simp [Turn.isPositive, hp]
  | accepted hc hp _ ih => simp [ih, hc.unobstructed, Turn.isPositive, hp]

/-- A run in which every answer is positive goes on to the first obstacle. -/
theorem result_of_isPositive (h : Executes ctx steps t r ctx')
    (hpos : ∀ turn ∈ t, turn.isPositive = true) :
    r = (steps.findSome? Step.obstacle?).elim (.ok true) .error := by
  induction h with
  | done ctx => rfl
  | blocked ho => rw [List.findSome?_cons, ho]; rfl
  | failed e hc => cases hpos _ (List.mem_singleton_self _)
  | refused hc hp =>
    have h := hpos _ (List.mem_singleton_self _)
    cases hp.symm.trans h
  | accepted hc _ _ ih =>
    rw [List.findSome?_cons, hc.unobstructed]
    exact ih fun turn hmem => hpos turn (List.mem_cons_of_mem _ hmem)

theorem context_of_success (h : Executes ctx steps t r ctx') (hr : r = .ok true) :
    ctx' = steps.foldl Step.after ctx := by
  induction h with
  | done ctx => rfl
  | accepted _ _ _ ih => exact ih hr
  | blocked _ => cases hr
  | failed _ _ => cases hr
  | refused _ _ => cases hr

end Executes

theorem plan_after (nodes : List Node) (links : List Link) (hooks : List Hook)
    (ctx : SessionContext) :
    ((plan nodes links hooks).foldl Step.after ctx).state = .instantiation := by
  unfold plan
  rw [List.foldl_append]
  rfl

/-- However it is answered, the operation carries out the steps. -/
def Follows (op : SessionM Bool) (steps : List Step) : Prop :=
  ∀ ctx t r ctx', op.Yields ctx t r ctx' → Executes ctx steps t r ctx'

theorem setState_follows (state : SessionState) : Follows (setState state) [.enter state] := by
  intro ctx t r ctx' h
  obtain ⟨answer, rfl, rfl, rfl⟩ := setState_yields h
  match answer with
  | .error e => exact .failed e (.enter state)
  | .ok ⟨false⟩ => exact .refused (.enter state) rfl
  | .ok ⟨true⟩ => exact .accepted (.enter state) rfl (.done _)

theorem report_bind_yields {level : Log.Level} {message : SessionContext → String}
    {α : Type} {k : SessionM α} {ctx ctx' : SessionContext} {t : List Turn}
    {r : Except ConnectError α}
    (h : SessionM.Yields (report level message >>= fun _ => k) ctx t r ctx') :
    k.Yields ctx t r ctx' := by
  rcases SessionM.yields_bind.mp h with ⟨e, h₁, _⟩ | ⟨t₁, _, ctx₁, t₂, h₁, h₂, rfl⟩
  · cases (report_yields.mp h₁).2.1
  · obtain ⟨rfl, _, rfl⟩ := report_yields.mp h₁
    exact h₂

/-- Reporting a refusal changes nothing about it. -/
theorem orReport_yields {op : SessionM Bool} {message : SessionContext → String}
    {ctx ctx' : SessionContext} {t : List Turn} {r : Except ConnectError Bool}
    (h : SessionM.Yields (do
      let accepted ← op
      if accepted then return true
      report .warn message
      return false) ctx t r ctx') : op.Yields ctx t r ctx' := by
  rcases SessionM.yields_bind.mp h with ⟨e, h₁, rfl⟩ | ⟨t₁, accepted, ctx₁, t₂, h₁, h₂, rfl⟩
  · exact h₁
  · cases accepted with
    | true =>
      obtain ⟨rfl, rfl, rfl⟩ := SessionM.yields_pure.mp h₂
      rwa [List.append_nil]
    | false =>
      obtain ⟨rfl, rfl, rfl⟩ := SessionM.yields_pure.mp (report_bind_yields h₂)
      rwa [List.append_nil]

/-- A step whose request is answered by an acknowledgment alone. -/
theorem request_executes {step : Step} {m : Method} {q : m.Request} {k : m.Response → ClientM Bool}
    {ctx : SessionContext} {t : List Turn} {r : Except ConnectError Bool}
    (h : (request m q >>= k).run.Yields t r) (hc : step.Requests ctx.id ⟨m, q⟩)
    (hstep : step.after ctx = ctx)
    (hk : ∀ response u x, (k response).run.Yields u x → u = [] ∧ x = .ok (m.isPositive response)) :
    Executes ctx [step] t r ctx := by
  rcases request_bind_yields.mp h with ⟨e, rfl, rfl⟩ | ⟨response, u, hu, rfl⟩
  · exact .failed e hc
  · obtain ⟨rfl, rfl⟩ := hk response u r hu
    cases hp : m.isPositive response with
    | false => exact .refused hc hp
    | true =>
      refine .accepted hc hp ?_
      rw [hstep]
      exact .done ctx

theorem addHook_follows (hook : Hook) : Follows (addHook hook) [.addHook hook] := by
  intro ctx t r ctx' h
  obtain ⟨h₁, rfl⟩ := onSession_yields.mp (orReport_yields h)
  exact request_executes h₁ (.addHook hook) rfl fun _ _ _ hu => note_bind_yields.mp hu

theorem addLink_follows (link : Link) : Follows (addLink link) [.addLink link] := by
  intro ctx t r ctx' h
  obtain ⟨h₁, rfl⟩ := onSession_yields.mp (orReport_yields h)
  rcases mapped_bind_yields h₁ with ⟨e, hw, rfl, rfl⟩ | ⟨wire, hw, h₂⟩
  · exact .blocked (by simp [Step.obstacle?, hw])
  · exact request_executes h₂ (.addLink hw) rfl fun _ _ _ hu => note_bind_yields.mp hu

theorem setNodeWlanConfig_executes {node : Node} {config : WlanConfig} {ctx : SessionContext}
    {t : List Turn} {r : Except ConnectError Bool}
    (h : (setNodeWlanConfig node config ctx).run.Yields t r) :
    Executes ctx [.writeWlan node] t r ctx := by
  rcases nodeId_bind_yields h with ⟨hid, rfl, rfl⟩ | ⟨id, hid, h₁⟩
  · exact .blocked (by simp [Step.obstacle?, hid])
  · exact request_executes h₁ (.writeWlan _ hid) rfl fun _ _ _ hu => hu

/-- Reading the options of a wireless network goes wrong for want of an id or of an answer, and
never because of what the daemon answers. -/
theorem getNodeWlanConfig_yields {node : Node} {ctx : SessionContext} {t : List Turn}
    {x : Except ConnectError WlanConfig} (h : (getNodeWlanConfig node ctx).run.Yields t x) :
    (∃ e, x = .error e ∧ ∀ rest, Executes ctx (.readWlan node :: rest) t (.error e) ctx) ∨
      ∃ config call response, x = .ok config ∧ t = [⟨call, .ok response⟩] ∧
        (Step.readWlan node).Requests ctx.id call ∧ call.method.isPositive response = true := by
  rcases nodeId_bind_yields h with ⟨hid, rfl, rfl⟩ | ⟨id, hid, h₁⟩
  · exact .inl ⟨_, rfl, fun _ => .blocked (by simp [Step.obstacle?, hid])⟩
  · rcases request_bind_yields.mp h₁ with ⟨e, rfl, rfl⟩ | ⟨response, u, hu, rfl⟩
    · exact .inl ⟨_, rfl, fun _ => .failed e (.readWlan hid)⟩
    · obtain ⟨config, hconfig⟩ := WlanConfig.ofGroups_ok (response.groups.map ConfigGroup.ofWire)
      obtain ⟨rfl, rfl⟩ := mapped_yields.mp hu
      refine .inr ⟨config, _, response, ?_, rfl, .readWlan hid, rfl⟩
      unfold recordOfGroups
      rw [hconfig]
      rfl

theorem pinWlanConfig_follows (node : Node) :
    Follows (pinWlanConfig node) [.readWlan node, .writeWlan node] := by
  intro ctx t r ctx' h
  rcases SessionM.yields_bind.mp h with ⟨e, h₁, rfl⟩ | ⟨t₁, config, ctx₁, t₂, h₁, h₂, rfl⟩
  · obtain ⟨h₁, rfl⟩ := onSession_yields.mp h₁
    rcases getNodeWlanConfig_yields h₁ with ⟨e', he, hex⟩ | ⟨_, _, _, he, _⟩
    · cases he
      exact hex _
    · cases he
  · obtain ⟨h₁, rfl⟩ := onSession_yields.mp h₁
    obtain ⟨h₂, rfl⟩ := onSession_yields.mp (orReport_yields h₂)
    rcases getNodeWlanConfig_yields h₁ with ⟨_, he, _⟩ | ⟨_, call, response, _, rfl, hc, hp⟩
    · cases he
    · exact .accepted hc hp (setNodeWlanConfig_executes h₂)

theorem pure_follows : Follows (pure true) [] := by
  intro ctx t r ctx' h
  obtain ⟨rfl, rfl, rfl⟩ := SessionM.yields_pure.mp h
  exact .done ctx'

/-- Going on only from an acceptance is carrying out one list of steps after the other. -/
theorem Follows.andThen {op : SessionM Bool} {k : Bool → SessionM Bool} {first rest : List Step}
    (hop : Follows op first) (hk : Follows (k true) rest) (hstop : k false = pure false) :
    Follows (op >>= k) (first ++ rest) := by
  intro ctx t r ctx' h
  rcases SessionM.yields_bind.mp h with ⟨e, h₁, rfl⟩ | ⟨t₁, accepted, ctx₁, t₂, h₁, h₂, rfl⟩
  · exact (hop ctx t _ ctx' h₁).stop (by simp)
  · cases accepted with
    | true => exact (hop ctx t₁ _ ctx₁ h₁).append (hk ctx₁ t₂ r ctx' h₂)
    | false =>
      rw [hstop] at h₂
      obtain ⟨rfl, rfl, rfl⟩ := SessionM.yields_pure.mp h₂
      rw [List.append_nil]
      exact (hop ctx t₁ _ ctx' h₁).stop (by simp)

theorem Follows.afterReport {level : Log.Level} {message : SessionContext → String}
    {op : SessionM Bool} {steps : List Step} (hop : Follows op steps) :
    Follows (report level message >>= fun _ => op) steps :=
  fun ctx t r ctx' h => hop ctx t r ctx' (report_bind_yields h)

theorem createNode_follows (node : Node) (message : Int32 → SessionContext → String) :
    Follows (do
      let id ← onSession (createNode node)
      report .debug (message id)
      return true) [.addNode node] := by
  intro ctx t r ctx' h
  rcases SessionM.yields_bind.mp h with ⟨e, h₁, rfl⟩ | ⟨t₁, id, ctx₁, t₂, h₁, h₂, rfl⟩
  · obtain ⟨h₁, rfl⟩ := onSession_yields.mp h₁
    rcases request_bind_yields.mp h₁ with ⟨e', rfl, he⟩ | ⟨_, _, hu, _⟩
    · cases he
      exact .failed e' (.addNode node)
    · cases (note_bind_yields.mp hu).2
  · obtain ⟨h₁, rfl⟩ := onSession_yields.mp h₁
    obtain ⟨rfl, rfl, rfl⟩ := SessionM.yields_pure.mp (report_bind_yields h₂)
    rcases request_bind_yields.mp h₁ with ⟨_, _, he⟩ | ⟨response, u, hu, rfl⟩
    · cases he
    · obtain ⟨rfl, _⟩ := note_bind_yields.mp hu
      exact .accepted (.addNode node) rfl (.done _)

theorem addNode_follows (node : Node) : Follows (addNode node) (nodeSteps node) := by
  unfold addNode nodeSteps
  cases node.isWlan with
  | true => exact (pinWlanConfig_follows node).andThen (createNode_follows node _) rfl
  | false => exact pure_follows.andThen (createNode_follows node _) rfl

theorem allAccepted_follows {α : Type} {step : α → SessionM Bool} {steps : α → List Step}
    (hstep : ∀ a, Follows (step a) (steps a)) (as : List α) :
    Follows (allAccepted step as) (as.flatMap steps) := by
  induction as with
  | nil => exact pure_follows
  | cons a rest ih => exact (hstep a).andThen ih rfl

/-- A start carries out its plan. -/
theorem start_follows (nodes : List Node) (links : List Link) (hooks : List Hook) :
    Follows (start nodes links hooks) (plan nodes links hooks) := by
  have hplan : plan nodes links hooks =
      [SessionState.definition, .configuration].flatMap (fun state => [.enter state]) ++
        (hooks.flatMap (fun hook => [.addHook hook]) ++ (nodes.flatMap nodeSteps ++
          (links.flatMap (fun link => [.addLink link]) ++ [.enter .instantiation]))) := by
    simp [plan, List.map_eq_flatMap]
  rw [hplan]
  refine Follows.afterReport ?_
  refine Follows.andThen (allAccepted_follows setState_follows _) ?_ rfl
  refine Follows.andThen (allAccepted_follows addHook_follows hooks) ?_ rfl
  refine Follows.andThen (allAccepted_follows addNode_follows nodes) ?_ rfl
  refine Follows.andThen (allAccepted_follows addLink_follows links) ?_ rfl
  exact setState_follows .instantiation

/-- In every world, the requests of a start are the beginning of its plan, which is cut before the
first step that is obstructed. Only the last of them may go unanswered or be refused. The start goes
well exactly when nothing obstructs the plan and every answer is positive, and then the plan is
carried out to its end. -/
theorem start_keeps_to_plan {σ : Type} (world : World σ) (s : σ) (ctx : SessionContext)
    (nodes : List Node) (links : List Link) (hooks : List Hook) :
    let program := (start nodes links hooks).run.run ctx
    let steps := plan nodes links hooks
    let t := program.trace world s
    let result := (program.run world s).1.1
    (∃ taken, taken <+: feasible steps ∧
        List.Forall₂ (Step.Requests ctx.id) taken (t.map Turn.call)) ∧
      (∀ turn ∈ t.dropLast, turn.isPositive = true) ∧
      (result = .ok true ↔
        (∀ step ∈ steps, step.obstacle? = none) ∧ ∀ turn ∈ t, turn.isPositive = true) ∧
      (result = .ok true ↔
        List.Forall₂ (Step.Requests ctx.id) steps (t.map Turn.call) ∧
          ∀ turn ∈ t, turn.isPositive = true) := by
  intro program steps t result
  have h : Executes ctx steps t result (program.run world s).1.2 :=
    start_follows nodes links hooks ctx t result _ (program.yields_run world s)
  refine ⟨h.follows_feasible, h.isPositive_of_mem_dropLast, h.succeeds_iff, ?_⟩
  constructor
  · intro hr
    exact ⟨h.complete hr, (h.succeeds_iff.mp hr).2⟩
  · rintro ⟨hall, hpos⟩
    exact h.succeeds_iff.mpr ⟨unobstructed_of_requests hall, hpos⟩

end EmuControl.StartPlan
