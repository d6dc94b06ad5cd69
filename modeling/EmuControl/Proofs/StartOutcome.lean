import EmuControl.Proofs.StartPlan

/-!
# How a start ends

A start that does not go well ends for one of four reasons, and its result says which. The last
answer was a refusal, or the last call did not complete, or the next step of the plan is about a
wireless network without an id, or the next step adds a link with a mask that holds no integer. In
the last two cases every answer so far was positive.

`Ending` is the account of a run that its trace gives. That every run has one is proved along the
run. No two endings share a result, so each equivalence below is a case split on the ending.
-/
namespace EmuControl

open Wire Client

/-- The call completed, and its response says no. -/
def Turn.IsRefused (turn : Turn) : Prop :=
  ∃ response, turn.answer = .ok response ∧ turn.call.method.isPositive response = false

theorem Turn.IsRefused.isPositive_eq_false {turn : Turn} (h : turn.IsRefused) :
    turn.isPositive = false := by
  obtain ⟨response, hanswer, hno⟩ := h
  rw [isPositive, hanswer]
  exact hno

theorem Turn.isPositive_eq_false_of_error {turn : Turn} {e : ApiError}
    (h : turn.answer = .error e) : turn.isPositive = false := by
  rw [isPositive, h]

theorem ConnectError.ofApi_injective {e e' : ApiError} (h : ofApi e = ofApi e') : e = e' := by
  cases e <;> cases e' <;> cases h <;> rfl

namespace StartPlan

variable {steps : List Step} {t : List Turn} {r : Except ConnectError Bool}

/-- How steps ended that went through the turns `t`. -/
inductive Ending (steps : List Step) (t : List Turn) : Except ConnectError Bool → Prop
  | completed : (∀ turn ∈ t, turn.isPositive = true) → t.length = steps.length →
      Ending steps t (.ok true)
  | refused {turn : Turn} : t.getLast? = some turn → turn.IsRefused → Ending steps t (.ok false)
  | failed {turn : Turn} {e : ApiError} : t.getLast? = some turn → turn.answer = .error e →
      Ending steps t (.error (.ofApi e))
  | blocked {step : Step} {e : ConnectError} : (∀ turn ∈ t, turn.isPositive = true) →
      steps[t.length]? = some step → step.obstacle? = some e → Ending steps t (.error e)

theorem Ending.cons (h : Ending steps t r) (step : Step) {turn : Turn}
    (hturn : turn.isPositive = true) : Ending (step :: steps) (turn :: t) r := by
  have hlast : ∀ {last : Turn}, t.getLast? = some last → (turn :: t).getLast? = some last := by
    intro last ht
    rw [List.getLast?_cons, ht]
    rfl
  cases h with
  | completed hpos hlen =>
    exact .completed (List.forall_mem_cons.mpr ⟨hturn, hpos⟩) (congrArg Nat.succ hlen)
  | refused ht hno => exact .refused (hlast ht) hno
  | failed ht he => exact .failed (hlast ht) he
  | blocked hpos hnext ho => exact .blocked (List.forall_mem_cons.mpr ⟨hturn, hpos⟩) hnext ho

theorem Executes.ending {ctx ctx' : SessionContext} (h : Executes ctx steps t r ctx') :
    Ending steps t r := by
  induction h with
  | done ctx => exact .completed (by simp) rfl
  | blocked ho => exact .blocked (by simp) rfl ho
  | failed e hc => exact .failed rfl rfl
  | refused hc hp => exact .refused rfl ⟨_, rfl, hp⟩
  | accepted hc hp _ ih => exact ih.cons _ hp

theorem Step.obstacle?_cases {step : Step} {e : ConnectError} (h : step.obstacle? = some e) :
    (∃ node, step = .readWlan node ∧ node.id = none ∧ e = .missingNodeId "get_wlan_config") ∨
    (∃ node, step = .writeWlan node ∧ node.id = none ∧ e = .missingNodeId "set_wlan_config") ∨
    ∃ link mask, step = .addLink link ∧ link.badMask? = some mask ∧
      e = .mapping (.invalidNumber "ip6_mask" mask) := by
  cases step with
  | readWlan node =>
    cases hid : node.id with
    | none =>
      rw [obstacle?, hid] at h
      exact .inl ⟨node, rfl, hid, (Option.some.inj h).symm⟩
    | some id =>
      rw [obstacle?, hid] at h
      cases h
  | writeWlan node =>
    cases hid : node.id with
    | none =>
      rw [obstacle?, hid] at h
      exact .inr (.inl ⟨node, rfl, hid, (Option.some.inj h).symm⟩)
    | some id =>
      rw [obstacle?, hid] at h
      cases h
  | addLink link =>
    rw [addLink_obstacle?, Option.map_eq_some_iff] at h
    obtain ⟨mask, hmask, rfl⟩ := h
    exact .inr (.inr ⟨link, mask, rfl, hmask, rfl⟩)
  | enter state => cases h
  | addHook hook => cases h
  | addNode node => cases h

/-- What obstructs a step lies with the client, and so is no error of a call. -/
theorem Step.obstacle?_ne_ofApi {step : Step} {e : ConnectError} (h : step.obstacle? = some e)
    (a : ApiError) : e ≠ .ofApi a := by
  rcases obstacle?_cases h with ⟨_, _, _, rfl⟩ | ⟨_, _, _, rfl⟩ | ⟨_, _, _, _, rfl⟩ <;>
    cases a <;> simp [ConnectError.ofApi]

namespace Ending

theorem not_all_positive {turn : Turn} (hlast : t.getLast? = some turn)
    (hturn : turn.isPositive = false) : ¬ ∀ turn ∈ t, turn.isPositive = true := by
  intro hpos
  have h := hpos turn (List.mem_of_getLast? hlast)
  cases hturn.symm.trans h

theorem refused_iff (h : Ending steps t r) :
    r = .ok false ↔ ∃ turn, t.getLast? = some turn ∧ turn.IsRefused := by
  constructor
  · rintro rfl
    cases h with
    | refused hlast hno => exact ⟨_, hlast, hno⟩
  · rintro ⟨turn, hlast, hno⟩
    have hnot := not_all_positive hlast hno.isPositive_eq_false
    cases h with
    | completed hpos _ => exact absurd hpos hnot
    | refused _ _ => rfl
    | failed hlast' he =>
      obtain rfl := Option.some.inj (hlast.symm.trans hlast')
      obtain ⟨response, hok, _⟩ := hno
      cases hok.symm.trans he
    | blocked hpos _ _ => exact absurd hpos hnot

theorem failed_iff (h : Ending steps t r) (e : ApiError) :
    r = .error (.ofApi e) ↔ ∃ turn, t.getLast? = some turn ∧ turn.answer = .error e := by
  constructor
  · intro hr
    cases h with
    | completed _ _ => cases hr
    | refused _ _ => cases hr
    | failed hlast he =>
      obtain rfl := ConnectError.ofApi_injective (Except.error.inj hr)
      exact ⟨_, hlast, he⟩
    | blocked _ _ ho => exact absurd (Except.error.inj hr) (Step.obstacle?_ne_ofApi ho e)
  · rintro ⟨turn, hlast, he⟩
    have hnot := not_all_positive hlast (Turn.isPositive_eq_false_of_error he)
    cases h with
    | completed hpos _ => exact absurd hpos hnot
    | refused hlast' hno =>
      obtain rfl := Option.some.inj (hlast.symm.trans hlast')
      obtain ⟨response, hok, _⟩ := hno
      cases hok.symm.trans he
    | failed hlast' he' =>
      obtain rfl := Option.some.inj (hlast.symm.trans hlast')
      cases he.symm.trans he'
      rfl
    | blocked hpos _ _ => exact absurd hpos hnot

theorem blocked_iff (h : Ending steps t r) {e : ConnectError} (hclient : ∀ a, e ≠ .ofApi a) :
    r = .error e ↔ (∀ turn ∈ t, turn.isPositive = true) ∧
      ∃ step, steps[t.length]? = some step ∧ step.obstacle? = some e := by
  constructor
  · rintro rfl
    generalize hr : Except.error e = r at h
    cases h with
    | completed _ _ => cases hr
    | refused _ _ => cases hr
    | failed _ _ => exact absurd (Except.error.inj hr) (hclient _)
    | blocked hpos hnext ho =>
      cases hr
      exact ⟨hpos, _, hnext, ho⟩
  · rintro ⟨hpos, step, hnext, ho⟩
    cases h with
    | completed _ hlen =>
      rw [hlen, List.getElem?_length] at hnext
      cases hnext
    | refused hlast hno => exact absurd hpos (not_all_positive hlast hno.isPositive_eq_false)
    | failed hlast he =>
      exact absurd hpos (not_all_positive hlast (Turn.isPositive_eq_false_of_error he))
    | blocked _ hnext' ho' =>
      obtain rfl := Option.some.inj (hnext.symm.trans hnext')
      obtain rfl := Option.some.inj (ho.symm.trans ho')
      rfl

end Ending

variable {nodes : List Node} {links : List Link} {hooks : List Hook}

theorem isWlan_of_readWlan_mem {node : Node} (h : Step.readWlan node ∈ plan nodes links hooks) :
    node ∈ nodes ∧ node.isWlan = true := by
  simp only [plan, List.mem_append, List.mem_cons, List.mem_map, List.mem_flatMap, reduceCtorEq,
    List.not_mem_nil, and_false, exists_false, or_false, false_or] at h
  obtain ⟨node', hmem, hstep⟩ := h
  unfold nodeSteps at hstep
  split at hstep
  · rename_i hwlan
    simp only [List.mem_cons, Step.readWlan.injEq, reduceCtorEq, List.not_mem_nil,
      or_false] at hstep
    exact hstep ▸ ⟨hmem, hwlan⟩
  · simp at hstep

/-- A wireless network without an id is noticed when its options are to be read, and not when they
are to be written back. -/
theorem nodes_obstacle? {e : ConnectError}
    (h : (nodes.flatMap nodeSteps).findSome? Step.obstacle? = some e) :
    e = .missingNodeId "get_wlan_config" := by
  induction nodes with
  | nil => cases h
  | cons node rest ih =>
    rw [List.flatMap_cons, List.findSome?_append, Option.or_eq_some_iff] at h
    rcases h with h | ⟨_, h⟩
    · unfold nodeSteps at h
      split at h
      · cases hid : node.id with
        | none =>
          rw [List.findSome?_cons, Step.obstacle?, hid] at h
          exact (Option.some.inj h).symm
        | some id => simp [Step.obstacle?, hid] at h
      · simp [Step.obstacle?] at h
    · exact ih h

theorem plan_obstacle?_cases {e : ConnectError}
    (h : (plan nodes links hooks).findSome? Step.obstacle? = some e) :
    e = .missingNodeId "get_wlan_config" ∨
      ∃ mask, e = .mapping (.invalidNumber "ip6_mask" mask) := by
  rw [plan_obstacle?, Option.or_eq_some_iff] at h
  rcases h with h | ⟨_, h⟩
  · exact .inl (nodes_obstacle? h)
  · obtain ⟨mask, _, rfl⟩ := Option.map_eq_some_iff.mp h
    exact .inr ⟨mask, rfl⟩

/-- There are five results of a start besides success. -/
theorem Executes.result_cases {ctx ctx' : SessionContext}
    (h : Executes ctx (plan nodes links hooks) t r ctx') :
    r = .ok true ∨ r = .ok false ∨ (∃ e, r = .error (.ofApi e)) ∨
      r = .error (.missingNodeId "get_wlan_config") ∨
      ∃ mask, r = .error (.mapping (.invalidNumber "ip6_mask" mask)) := by
  have hending := h.ending
  cases hending with
  | completed _ _ => exact .inl rfl
  | refused _ _ => exact .inr (.inl rfl)
  | failed _ _ => exact .inr (.inr (.inl ⟨_, rfl⟩))
  | @blocked step e hpos hnext ho =>
    have hfirst : (plan nodes links hooks).findSome? Step.obstacle? = some e := by
      have hr := h.result_of_isPositive hpos
      cases hobst : (plan nodes links hooks).findSome? Step.obstacle? with
      | none =>
        rw [hobst] at hr
        cases hr
      | some e' =>
        rw [hobst] at hr
        cases hr
        rfl
    rcases plan_obstacle?_cases hfirst with rfl | ⟨mask, rfl⟩
    · exact .inr (.inr (.inr (.inl rfl)))
    · exact .inr (.inr (.inr (.inr ⟨mask, rfl⟩)))

theorem Executes.missingNodeId_iff {ctx ctx' : SessionContext}
    (h : Executes ctx (plan nodes links hooks) t r ctx') :
    (∃ operation, r = .error (.missingNodeId operation)) ↔
      (∀ turn ∈ t, turn.isPositive = true) ∧ ∃ node ∈ nodes,
        (plan nodes links hooks)[t.length]? = some (.readWlan node) ∧ node.isWlan = true ∧
          node.id = none := by
  have hclient : ∀ operation a, ConnectError.missingNodeId operation ≠ .ofApi a := by
    intro operation a
    cases a <;> simp [ConnectError.ofApi]
  constructor
  · rintro ⟨operation, hr⟩
    obtain ⟨hpos, step, hnext, ho⟩ := (h.ending.blocked_iff (hclient operation)).mp hr
    refine ⟨hpos, ?_⟩
    rcases Step.obstacle?_cases ho with
      ⟨node, rfl, hid, _⟩ | ⟨node, rfl, hid, ho'⟩ | ⟨_, _, _, _, ho'⟩
    · obtain ⟨hmem, hwlan⟩ := isWlan_of_readWlan_mem (List.mem_of_getElem? hnext)
      exact ⟨node, hmem, hnext, hwlan, hid⟩
    · -- for want of the id the plan would have been blocked one step earlier
      subst hr
      rcases h.result_cases with h' | h' | ⟨a, h'⟩ | h' | ⟨_, h'⟩
      · cases h'
      · cases h'
      · exact absurd (Except.error.inj h') (hclient operation a)
      · simp [ho'] at h'
      · cases h'
    · cases ho'
  · rintro ⟨hpos, node, _, hnext, _, hid⟩
    refine ⟨"get_wlan_config", (h.ending.blocked_iff (hclient _)).mpr ⟨hpos, _, hnext, ?_⟩⟩
    rw [Step.obstacle?, hid]
    rfl

theorem Executes.badMask_iff {ctx ctx' : SessionContext} {mask : String}
    (h : Executes ctx steps t r ctx') :
    r = .error (.mapping (.invalidNumber "ip6_mask" mask)) ↔
      (∀ turn ∈ t, turn.isPositive = true) ∧ ∃ link,
        steps[t.length]? = some (.addLink link) ∧ link.badMask? = some mask := by
  have hclient : ∀ a, ConnectError.mapping (.invalidNumber "ip6_mask" mask) ≠ .ofApi a := by
    intro a
    cases a <;> simp [ConnectError.ofApi]
  rw [h.ending.blocked_iff hclient]
  refine and_congr_right fun _ => ⟨?_, ?_⟩
  · rintro ⟨step, hnext, ho⟩
    rcases Step.obstacle?_cases ho with ⟨_, _, _, ho'⟩ | ⟨_, _, _, ho'⟩ | ⟨link, _, rfl, hbad, ho'⟩
    · cases ho'
    · cases ho'
    · cases ho'
      exact ⟨link, hnext, hbad⟩
  · rintro ⟨link, hnext, hbad⟩
    refine ⟨_, hnext, ?_⟩
    rw [Step.addLink_obstacle?, hbad]
    rfl

/-- In every world, the result of a start that does not go well says how it ended. It is `false`
exactly when the last answer was a refusal, the error of a call exactly when the last call failed
with that error, and otherwise names what is missing in the next step of the plan: the id of a
wireless network, or an integer in the first bad mask of a link. There is no other result, as the
options of a wireless network can be read from whatever the daemon answers. -/
theorem start_result_classified {σ : Type} (world : World σ) (s : σ) (ctx : SessionContext)
    (nodes : List Node) (links : List Link) (hooks : List Hook) :
    let program := (start nodes links hooks).run.run ctx
    let steps := plan nodes links hooks
    let t := program.trace world s
    let result := (program.run world s).1.1
    (result = .ok false ↔ ∃ turn, t.getLast? = some turn ∧ turn.IsRefused) ∧
      (∀ e : ApiError, result = .error (.ofApi e) ↔
        ∃ turn, t.getLast? = some turn ∧ turn.answer = .error e) ∧
      ((∃ operation, result = .error (.missingNodeId operation)) ↔
        (∀ turn ∈ t, turn.isPositive = true) ∧ ∃ node ∈ nodes,
          steps[t.length]? = some (.readWlan node) ∧ node.isWlan = true ∧ node.id = none) ∧
      (∀ mask, result = .error (.mapping (.invalidNumber "ip6_mask" mask)) ↔
        (∀ turn ∈ t, turn.isPositive = true) ∧ ∃ link,
          steps[t.length]? = some (.addLink link) ∧ link.badMask? = some mask) ∧
      (result = .ok true ∨ result = .ok false ∨ (∃ e, result = .error (.ofApi e)) ∨
        result = .error (.missingNodeId "get_wlan_config") ∨
        ∃ mask, result = .error (.mapping (.invalidNumber "ip6_mask" mask))) ∧
      ∀ response : OptionGroups, ∃ config : WlanConfig, recordOfGroups response = .ok config := by
  intro program steps t result
  have h : Executes ctx steps t result (program.run world s).1.2 :=
    start_follows nodes links hooks ctx t result _ (program.yields_run world s)
  exact ⟨h.ending.refused_iff, h.ending.failed_iff, h.missingNodeId_iff, fun _ => h.badMask_iff,
    h.result_cases, fun response => WlanConfig.ofGroups_ok _⟩

end StartPlan

end EmuControl
