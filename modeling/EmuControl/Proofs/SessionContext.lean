import EmuControl.Proofs.StartPlan

/-!
# What a session's context knows

A context holds the id of its session and the state that the daemon acknowledged last. Nothing else
gets into it, however operations, starts and stops follow each other and however they end.

Starts and stops are made of operations of the client: `Chain` lists them with the context before
and after each. What holds of one operation therefore holds all along a run. Where in its plan a
start stands says which state its context is in.
-/
namespace EmuControl

open Wire

/-- The number of the state that the answer acknowledges. -/
def Turn.target? : Turn → Option Int32
  | ⟨⟨.setSessionState, request⟩, .ok ⟨true⟩⟩ => some request.state
  | _ => none

theorem Turn.target?_of_method {turn : Turn} (h : turn.call.method ≠ .setSessionState) :
    turn.target? = none := by
  unfold target?
  split
  · exact absurd rfl h
  · rfl

theorem Turn.target?_of_isPositive {turn : Turn} (h : turn.isPositive = false) :
    turn.target? = none := by
  unfold target?
  split
  · cases h
  · rfl

/-- The number that was acknowledged last, or the initial one. -/
def lastTarget (initial : Int32) (t : List Turn) : Int32 :=
  (t.filterMap Turn.target?).getLast?.getD initial

theorem lastTarget_append (initial : Int32) (t u : List Turn) :
    lastTarget initial (t ++ u) = lastTarget (lastTarget initial t) u := by
  unfold lastTarget
  rw [List.filterMap_append, List.getLast?_append]
  cases (u.filterMap Turn.target?).getLast? with
  | none => rfl
  | some n => rfl

theorem lastTarget_singleton (initial : Int32) (turn : Turn) :
    lastTarget initial [turn] = turn.target?.getD initial := by
  unfold lastTarget
  rw [List.filterMap_cons]
  cases turn.target? with
  | none => rfl
  | some n => rfl

/-- The methods by which a start builds the network. -/
def buildingMethods : List Method :=
  [.addHook, .getWlanConfig, .setWlanConfig, .addNode, .addLink]

theorem SessionState.number_injective : Function.Injective SessionState.number := by
  intro a b h
  cases a <;> cases b <;> first | rfl | exact absurd h (by decide)

/-- From `ctx`, through the turns `t`, the context has become `ctx'` by acknowledgments alone. -/
structure Acknowledged (ctx : SessionContext) (t : List Turn) (ctx' : SessionContext) : Prop where
  id_eq : ctx'.id = ctx.id
  state_eq : ctx'.state.number = lastTarget ctx.state.number t

namespace Acknowledged

variable {ctx ctx₁ ctx' : SessionContext} {t u : List Turn}

theorem refl (ctx : SessionContext) : Acknowledged ctx [] ctx :=
  ⟨rfl, rfl⟩

theorem trans (h : Acknowledged ctx t ctx₁) (k : Acknowledged ctx₁ u ctx') :
    Acknowledged ctx (t ++ u) ctx' := by
  refine ⟨k.id_eq.trans h.id_eq, ?_⟩
  rw [k.state_eq, h.state_eq, lastTarget_append]

end Acknowledged

theorem Operation.perform_acknowledged {o : Operation} {ctx ctx' : SessionContext} {t : List Turn}
    {r : Except ConnectError o.Result} (h : o.perform.Yields ctx t r ctx') :
    Acknowledged ctx t ctx' := by
  by_cases ho : ∃ state, o = .setState state
  · obtain ⟨state, rfl⟩ := ho
    obtain ⟨answer, rfl, _, rfl⟩ := Client.setState_yields h
    match answer with
    | .error e => exact ⟨rfl, rfl⟩
    | .ok ⟨false⟩ => exact ⟨rfl, rfl⟩
    | .ok ⟨true⟩ => exact ⟨rfl, rfl⟩
  · rw [not_exists] at ho
    rw [perform_context h ho]
    refine ⟨rfl, ?_⟩
    obtain ⟨_, _, rfl, _⟩ | ⟨c, answer, hcall, rfl⟩ := perform_cases h
    · rfl
    · have hmethod : c.method ≠ .setSessionState := by
        rw [call_method hcall]
        cases o with
        | setState state => exact absurd rfl (ho state)
        | _ => exact Method.noConfusion
      rw [lastTarget_singleton, Turn.target?_of_method hmethod]
      rfl

theorem Operation.perform_singleton {o : Operation} {ctx ctx' : SessionContext} {t : List Turn}
    {r : Except ConnectError o.Result} (h : o.perform.Yields ctx t r ctx') {turn : Turn}
    (hmem : turn ∈ t) : t = [turn] := by
  obtain ⟨_, _, rfl, _⟩ | ⟨c, answer, _, rfl⟩ := perform_cases h
  · cases hmem
  · rw [List.mem_singleton.mp hmem]

/-- An operation in a run, with the context before and after it. -/
structure Moment where
  operation : Operation
  before : SessionContext
  turns : List Turn
  after : SessionContext

/-- Operations of the client, one after the other on one context. -/
inductive Chain : SessionContext → List Moment → SessionContext → Prop
  | nil (ctx : SessionContext) : Chain ctx [] ctx
  | cons {o : Operation} {ctx ctx₁ ctx' : SessionContext} {t : List Turn}
      {r : Except ConnectError o.Result} {moments : List Moment} :
      o.perform.Yields ctx t r ctx₁ → Chain ctx₁ moments ctx' →
      Chain ctx (⟨o, ctx, t, ctx₁⟩ :: moments) ctx'

namespace Chain

variable {ctx ctx₁ ctx' : SessionContext} {moments more : List Moment}

theorem append (h : Chain ctx moments ctx₁) (k : Chain ctx₁ more ctx') :
    Chain ctx (moments ++ more) ctx' := by
  induction h with
  | nil ctx => exact k
  | cons ho _ ih => exact .cons ho (ih k)

theorem acknowledged (h : Chain ctx moments ctx') :
    Acknowledged ctx (moments.flatMap Moment.turns) ctx' := by
  induction h with
  | nil ctx => exact .refl ctx
  | cons ho _ ih => exact (Operation.perform_acknowledged ho).trans ih

/-- A chain may be cut before any of its operations. -/
theorem split {earlier later : List Moment} {m : Moment}
    (h : Chain ctx (earlier ++ m :: later) ctx') :
    Chain ctx earlier m.before ∧ (∃ r, m.operation.perform.Yields m.before m.turns r m.after) ∧
      Chain m.after later ctx' := by
  induction earlier generalizing ctx with
  | nil =>
    cases h with
    | cons ho hrest => exact ⟨.nil _, ⟨_, ho⟩, hrest⟩
  | cons first earlier ih =>
    cases h with
    | cons ho hrest =>
      obtain ⟨hbefore, hm, hlater⟩ := ih hrest
      exact ⟨.cons ho hbefore, hm, hlater⟩

end Chain

/-- However it is answered, the operation is a chain of operations of the client. -/
def Composed {α : Type} (op : SessionM α) : Prop :=
  ∀ ctx t r ctx', op.Yields ctx t r ctx' →
    ∃ moments, Chain ctx moments ctx' ∧ moments.flatMap Moment.turns = t

namespace Composed

variable {α β : Type}

theorem perform (o : Operation) : Composed o.perform :=
  fun ctx t _ ctx' h => ⟨[⟨o, ctx, t, ctx'⟩], .cons h (.nil ctx'), List.append_nil t⟩

theorem pure (a : α) : Composed (Pure.pure a) := by
  intro ctx t r ctx' h
  obtain ⟨rfl, _, rfl⟩ := SessionM.yields_pure.mp h
  exact ⟨[], .nil ctx', rfl⟩

theorem report (level : Log.Level) (message : SessionContext → String) :
    Composed (Client.report level message) := by
  intro ctx t r ctx' h
  obtain ⟨rfl, _, rfl⟩ := Client.report_yields.mp h
  exact ⟨[], .nil ctx', rfl⟩

theorem bind {op : SessionM α} {f : α → SessionM β} (hop : Composed op)
    (hf : ∀ a, Composed (f a)) : Composed (op >>= f) := by
  intro ctx t r ctx' h
  rcases SessionM.yields_bind.mp h with ⟨e, h₁, rfl⟩ | ⟨t₁, a, ctx₁, t₂, h₁, h₂, rfl⟩
  · exact hop ctx t _ ctx' h₁
  · obtain ⟨first, hfirst, rfl⟩ := hop ctx t₁ _ ctx₁ h₁
    obtain ⟨rest, hrest, rfl⟩ := hf a ctx₁ t₂ r ctx' h₂
    exact ⟨first ++ rest, hfirst.append hrest, List.flatMap_append⟩

/-- Going on from an acceptance and ending otherwise. -/
theorem andThen {op : SessionM Bool} {f : Bool → SessionM Bool} (hop : Composed op)
    (htrue : Composed (f true)) (hfalse : f false = Pure.pure false) : Composed (op >>= f) := by
  refine hop.bind fun accepted => ?_
  cases accepted with
  | true => exact htrue
  | false =>
    rw [hfalse]
    exact pure false

theorem orReport {op : SessionM Bool} {message : SessionContext → String} (hop : Composed op) :
    Composed (do
      let accepted ← op
      if accepted then return true
      Client.report .warn message
      return false) := by
  refine hop.bind fun accepted => ?_
  cases accepted with
  | true => exact pure true
  | false => exact (report _ _).bind fun _ => pure false

theorem allAccepted {step : α → SessionM Bool} (hstep : ∀ a, Composed (step a)) (as : List α) :
    Composed (Client.allAccepted step as) := by
  induction as with
  | nil => exact pure true
  | cons a rest ih => exact (hstep a).andThen ih rfl

theorem addHook (hook : Hook) : Composed (Client.addHook hook) :=
  (perform (.createHook hook)).orReport

theorem addLink (link : Link) : Composed (Client.addLink link) :=
  (perform (.createLink link)).orReport

theorem addNode (node : Node) : Composed (Client.addNode node) := by
  have hcreate : Composed (do
      let id ← Client.onSession (Client.createNode node)
      Client.report .debug fun ctx =>
        Client.sessionText ctx ++ "node " ++ Number.writeInt32 id ++ " in place"
      return true) :=
    (perform (.createNode node)).bind fun _ => (report _ _).bind fun _ => pure true
  unfold Client.addNode
  cases node.isWlan with
  | true =>
    have hpin : Composed (Client.pinWlanConfig node) :=
      (perform (.getNodeWlanConfig node)).bind fun config =>
        (perform (.setNodeWlanConfig node config)).orReport
    exact hpin.andThen hcreate rfl
  | false => exact (pure true).andThen hcreate rfl

theorem start (nodes : List Node) (links : List Link) (hooks : List Hook) :
    Composed (Client.start nodes links hooks) := by
  have hstate := fun state => perform (.setState state)
  refine (report _ _).bind fun _ => ?_
  refine andThen (allAccepted hstate _) ?_ rfl
  refine andThen (allAccepted addHook hooks) ?_ rfl
  refine andThen (allAccepted addNode nodes) ?_ rfl
  refine andThen (allAccepted addLink links) ?_ rfl
  exact hstate .instantiation

theorem stop : Composed Client.stop :=
  (report _ _).bind fun _ => perform (.setState .shutdown)

end Composed

/-- Something that is done with a session. -/
inductive Activity where
  | operation (o : Operation)
  | start (nodes : List Node) (links : List Link) (hooks : List Hook)
  | stop

namespace Activity

abbrev Result : Activity → Type
  | operation o => o.Result
  | start _ _ _ | stop => Bool

def perform : (a : Activity) → SessionM a.Result
  | operation o => o.perform
  | start nodes links hooks => Client.start nodes links hooks
  | stop => Client.stop

/-- Does one thing after the other on a context, whatever comes of each. -/
def performAll : List Activity → SessionContext → Program SessionContext
  | [], ctx => return ctx
  | a :: rest, ctx => do
    let (_, ctx) ← a.perform.run.run ctx
    performAll rest ctx

theorem composed (a : Activity) : Composed a.perform := by
  cases a with
  | operation o => exact .perform o
  | start nodes links hooks => exact .start nodes links hooks
  | stop => exact .stop

theorem performAll_chain {activities : List Activity} {ctx ctx' : SessionContext} {t : List Turn}
    (h : (performAll activities ctx).Yields t ctx') :
    ∃ moments, Chain ctx moments ctx' ∧ moments.flatMap Moment.turns = t := by
  induction activities generalizing ctx t with
  | nil =>
    obtain ⟨rfl, rfl⟩ := h
    exact ⟨[], .nil ctx', rfl⟩
  | cons a rest ih =>
    obtain ⟨t₁, ⟨r, ctx₁⟩, t₂, h₁, h₂, rfl⟩ := Program.yields_bind.mp h
    obtain ⟨first, hfirst, rfl⟩ := a.composed ctx t₁ r ctx₁ h₁
    obtain ⟨later, hlater, rfl⟩ := ih h₂
    exact ⟨first ++ later, hfirst.append hlater, List.flatMap_append⟩

end Activity

namespace StartPlan

/-- The number of the state that a step moves the session to. -/
def Step.target? : Step → Option Int32
  | enter state => some state.number
  | _ => none

theorem Step.after_number (ctx : SessionContext) (step : Step) :
    (step.after ctx).state.number = step.target?.getD ctx.state.number := by
  cases step <;> rfl

theorem Step.Requests.target? {sessionId : Int32} {step : Step} {c : Call}
    {response : c.method.Response} (h : step.Requests sessionId c)
    (hpos : c.method.isPositive response = true) :
    (Turn.mk c (.ok response)).target? = step.target? := by
  cases h with
  | enter state =>
    obtain ⟨result⟩ := response
    cases hpos
    rfl
  | _ => rfl

/-- The middle of a plan, in which the network is built. -/
def building (nodes : List Node) (links : List Link) (hooks : List Hook) : List Step :=
  hooks.map .addHook ++ nodes.flatMap nodeSteps ++ links.map .addLink

theorem plan_eq_building (nodes : List Node) (links : List Link) (hooks : List Hook) :
    plan nodes links hooks = .enter .definition :: .enter .configuration ::
      (building nodes links hooks ++ [.enter .instantiation]) := by
  simp [plan, building]

theorem target?_of_mem_building {nodes : List Node} {links : List Link} {hooks : List Hook}
    {step : Step} (h : step ∈ building nodes links hooks) : step.target? = none := by
  unfold building at h
  rcases List.mem_append.mp h with h | h
  · rcases List.mem_append.mp h with h | h
    · obtain ⟨hook, _, rfl⟩ := List.mem_map.mp h
      rfl
    · obtain ⟨node, _, h⟩ := List.mem_flatMap.mp h
      unfold nodeSteps at h
      split at h
      · simp only [List.mem_cons, List.not_mem_nil, or_false] at h
        rcases h with rfl | rfl | rfl <;> rfl
      · rw [List.mem_singleton.mp h]
        rfl
  · obtain ⟨link, _, rfl⟩ := List.mem_map.mp h
    rfl

theorem foldl_after_of_target? {steps : List Step} (h : ∀ step ∈ steps, step.target? = none)
    (ctx : SessionContext) : steps.foldl Step.after ctx = ctx := by
  induction steps with
  | nil => rfl
  | cons step rest ih =>
    have hstep : step.after ctx = ctx := by
      cases step with
      | enter state => cases h _ List.mem_cons_self
      | _ => rfl
    rw [List.foldl_cons, hstep]
    exact ih fun step hmem => h step (List.mem_cons_of_mem _ hmem)

/-- A step of a plan is the first or the second one, or finds the session configured. -/
theorem plan_position {nodes : List Node} {links : List Link} {hooks : List Hook}
    {taken later : List Step} {step : Step} (h : plan nodes links hooks = taken ++ step :: later) :
    (taken = [] ∧ step = .enter .definition) ∨
      (taken = [.enter .definition] ∧ step = .enter .configuration) ∨
      ∀ ctx, (taken.foldl Step.after ctx).state = .configuration := by
  rw [plan_eq_building] at h
  match taken with
  | [] =>
    cases h
    exact .inl ⟨rfl, rfl⟩
  | [first] =>
    cases h
    exact .inr (.inl ⟨rfl, rfl⟩)
  | first :: second :: taken =>
    refine .inr (.inr fun ctx => ?_)
    rw [List.cons_append, List.cons_append] at h
    injection h with hfirst h
    injection h with hsecond h
    -- the last step is not among those taken
    have hlength : taken.length ≤ (building nodes links hooks).length := by
      have := congrArg List.length h
      simp only [List.length_append, List.length_cons, List.length_nil] at this
      omega
    have hbeginning : taken <+: building nodes links hooks :=
      List.prefix_of_prefix_length_le ⟨_, h.symm⟩ (List.prefix_append _ _) hlength
    rw [← hfirst, ← hsecond, List.foldl_cons, List.foldl_cons, foldl_after_of_target?]
    · rfl
    · exact fun step hmem => target?_of_mem_building (hbeginning.subset hmem)

namespace Executes

variable {ctx ctx' : SessionContext} {steps : List Step} {t : List Turn}
  {r : Except ConnectError Bool}

/-- Where a request stands in the plan, and what had been acknowledged when it was made. -/
theorem position {before later : List Turn} {turn : Turn}
    (h : Executes ctx steps (before ++ turn :: later) r ctx') :
    ∃ taken step rest, steps = taken ++ step :: rest ∧ step.Requests ctx.id turn.call ∧
      (taken.foldl Step.after ctx).state.number = lastTarget ctx.state.number before := by
  generalize ht : before ++ turn :: later = t at h
  induction h generalizing before with
  | done ctx => simp at ht
  | blocked _ => simp at ht
  | @failed ctx step rest c e hc =>
    obtain ⟨rfl, ht⟩ | ⟨_, _, ht⟩ := List.append_eq_cons_iff.mp ht
    · cases ht
      exact ⟨[], step, rest, rfl, hc, rfl⟩
    · simp at ht
  | @refused ctx step rest c response hc _ =>
    obtain ⟨rfl, ht⟩ | ⟨_, _, ht⟩ := List.append_eq_cons_iff.mp ht
    · cases ht
      exact ⟨[], step, rest, rfl, hc, rfl⟩
    · simp at ht
  | @accepted ctx ctx' step rest c response t r hc hp _ ih =>
    obtain ⟨rfl, ht⟩ | ⟨before', rfl, ht'⟩ := List.append_eq_cons_iff.mp ht
    · cases ht
      exact ⟨[], step, rest, rfl, hc, rfl⟩
    · obtain ⟨taken, step', later', rfl, hreq, hstate⟩ := ih ht'.symm
      rw [Step.after_id] at hreq
      refine ⟨step :: taken, step', later', rfl, hreq, ?_⟩
      rw [List.foldl_cons, hstate, Step.after_number, ← hc.target? hp, ← lastTarget_singleton,
        ← lastTarget_append, List.singleton_append]

/-- How far a plan was carried out: the steps taken account for the context and for everything that
was acknowledged. -/
theorem progress (h : Executes ctx steps t r ctx') :
    ∃ taken rest, steps = taken ++ rest ∧ (rest = [] → r = .ok true) ∧
      ctx' = taken.foldl Step.after ctx ∧
      t.filterMap Turn.target? = taken.filterMap Step.target? := by
  induction h with
  | done ctx => exact ⟨[], [], rfl, fun _ => rfl, rfl, rfl⟩
  | blocked _ => exact ⟨[], _, rfl, by simp, rfl, rfl⟩
  | failed e hc =>
    refine ⟨[], _, rfl, by simp, rfl, ?_⟩
    rw [List.filterMap_cons, Turn.target?_of_isPositive rfl]
    rfl
  | @refused ctx step rest c response hc hp =>
    have hturn : (Turn.mk c (.ok response)).isPositive = false := hp
    refine ⟨[], _, rfl, by simp, rfl, ?_⟩
    rw [List.filterMap_cons, Turn.target?_of_isPositive hturn]
    rfl
  | @accepted ctx ctx' step rest c response t r hc hp _ ih =>
    obtain ⟨taken, later, rfl, hend, hctx, htargets⟩ := ih
    refine ⟨step :: taken, later, rfl, hend, hctx, ?_⟩
    rw [List.filterMap_cons, List.filterMap_cons, hc.target? hp, htargets]

end Executes

theorem Step.Requests.not_building {sessionId : Int32} {state : SessionState} {c : Call}
    (h : (Step.enter state).Requests sessionId c) : c.method ∉ buildingMethods := by
  cases h
  exact (by decide : Method.setSessionState ∉ buildingMethods)

variable {nodes : List Node} {links : List Link} {hooks : List Hook} {ctx ctx' : SessionContext}
  {t : List Turn} {r : Except ConnectError Bool}

/-- An operation of a start that builds the network finds the session configured. -/
theorem start_builds_configured {moments : List Moment}
    (h : (Client.start nodes links hooks).Yields ctx t r ctx') (hchain : Chain ctx moments ctx')
    (hturns : moments.flatMap Moment.turns = t) {m : Moment} (hm : m ∈ moments) {turn : Turn}
    (hturn : turn ∈ m.turns) (hbuilds : turn.call.method ∈ buildingMethods) :
    m.before.state = .configuration := by
  obtain ⟨earlier, later, rfl⟩ := List.append_of_mem hm
  obtain ⟨hbefore, ⟨_, hop⟩, _⟩ := hchain.split
  have ht : earlier.flatMap Moment.turns ++ turn :: later.flatMap Moment.turns = t := by
    rw [← hturns, List.flatMap_append, List.flatMap_cons, Operation.perform_singleton hop hturn]
    rfl
  have hexec := start_follows nodes links hooks ctx t r ctx' h
  rw [← ht] at hexec
  obtain ⟨taken, step, rest, hplan, hreq, hstate⟩ := hexec.position
  rcases plan_position hplan with ⟨_, rfl⟩ | ⟨_, rfl⟩ | hconfigured
  · exact absurd hbuilds hreq.not_building
  · exact absurd hbuilds hreq.not_building
  · apply SessionState.number_injective
    rw [hbefore.acknowledged.state_eq, ← hstate, hconfigured ctx]

/-- A start that does not go well leaves the session where its plan broke off. -/
theorem start_breaks_off (h : (Client.start nodes links hooks).Yields ctx t r ctx')
    (hr : r ≠ .ok true) :
    (ctx' = ctx ∧ ∀ turn ∈ t, turn.target? = none) ∨
      ctx'.state = .definition ∨ ctx'.state = .configuration := by
  obtain ⟨taken, rest, hplan, hend, rfl, htargets⟩ :=
    (start_follows nodes links hooks ctx t r ctx' h).progress
  cases rest with
  | nil => exact absurd (hend rfl) hr
  | cons step rest =>
    rcases plan_position hplan with ⟨rfl, _⟩ | ⟨rfl, _⟩ | hconfigured
    · exact .inl ⟨rfl, List.filterMap_eq_nil_iff.mp htargets⟩
    · exact .inr (.inl rfl)
    · exact .inr (.inr (hconfigured ctx))

end StartPlan

/-- In every world, whatever is done with a session and whatever comes of it, the context keeps its
id and holds the state that was acknowledged last, after every single operation. While a start
builds the network the context is in the configuration state. A start that does not go well leaves
the context as it was or in one of the two states before the instantiation. -/
theorem context_follows_acknowledgments {σ : Type} (world : World σ) (s : σ)
    (ctx : SessionContext) :
    (∀ activities : List Activity,
      let program := Activity.performAll activities ctx
      let t := program.trace world s
      let ctx' := (program.run world s).1
      Acknowledged ctx t ctx' ∧
        ∃ moments, Chain ctx moments ctx' ∧ moments.flatMap Moment.turns = t ∧
          ∀ earlier m later, moments = earlier ++ m :: later →
            Acknowledged ctx (earlier.flatMap Moment.turns ++ m.turns) m.after) ∧
      ∀ (nodes : List Node) (links : List Link) (hooks : List Hook),
        let program := (Client.start nodes links hooks).run.run ctx
        let t := program.trace world s
        let (result, ctx') := (program.run world s).1
        (∃ moments, Chain ctx moments ctx' ∧ moments.flatMap Moment.turns = t ∧
          ∀ m ∈ moments, ∀ turn ∈ m.turns, turn.call.method ∈ buildingMethods →
            m.before.state = .configuration) ∧
        (result ≠ .ok true →
          (ctx'.state = ctx.state ∨ ctx'.state = .definition ∨ ctx'.state = .configuration) ∧
          (ctx'.state = .instantiation →
            ctx.state = .instantiation ∧ ∀ turn ∈ t, turn.target? = none)) := by
  constructor
  · intro activities program t ctx'
    obtain ⟨moments, hchain, hturns⟩ :=
      Activity.performAll_chain (program.yields_run world s)
    refine ⟨?_, moments, hchain, hturns, ?_⟩
    · have h := hchain.acknowledged
      rwa [hturns] at h
    · rintro earlier m later rfl
      obtain ⟨hbefore, ⟨_, hm⟩, _⟩ := hchain.split
      exact hbefore.acknowledged.trans (Operation.perform_acknowledged hm)
  · intro nodes links hooks program t
    have hyields : (Client.start nodes links hooks).Yields ctx t (program.run world s).1.1
        (program.run world s).1.2 :=
      program.yields_run world s
    refine ⟨?_, ?_⟩
    · obtain ⟨moments, hchain, hturns⟩ := Composed.start nodes links hooks ctx t _ _ hyields
      exact ⟨moments, hchain, hturns, fun m hm turn hturn hbuilds =>
        StartPlan.start_builds_configured hyields hchain hturns hm hturn hbuilds⟩
    · intro hr
      rcases StartPlan.start_breaks_off hyields hr with ⟨hsame, hnone⟩ | hstate | hstate
      · rw [hsame]
        exact ⟨.inl rfl, fun hstate => ⟨hstate, hnone⟩⟩
      · rw [hstate]
        exact ⟨.inr (.inl rfl), fun h => by cases h⟩
      · rw [hstate]
        exact ⟨.inr (.inr rfl), fun h => by cases h⟩

end EmuControl
