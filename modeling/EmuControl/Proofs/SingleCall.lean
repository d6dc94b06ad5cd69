import EmuControl.Proofs.LinkMapping
import EmuControl.Proofs.OptionCodec
import EmuControl.Proofs.SessionScope

/-!
# One call for each operation

An operation of the client makes one call, whatever becomes of that call and of its response. Four
operations can fail before it, and `Operation.obstacle?` says when: three need a node with an id,
and a link cannot be sent whose IPv6 mask holds no integer. No options stand in the way of an
operation that sends them, because the schemas that it sends them by are open and reserve nothing.
-/
namespace EmuControl

open Wire

namespace OptionSchema

/-- The schema takes every option as it is. -/
def IsFree (s : OptionSchema) : Prop :=
  s.keys = [] ∧ s.isOpen = true

variable {s : OptionSchema}

theorem IsFree.key? (hs : s.IsFree) (name : String) : s.key? name = none := by
  rw [OptionSchema.key?, hs.1]
  rfl

theorem IsFree.admissible (hs : s.IsFree) (m : OptionMap) :
    s.Admissible (m.mapValues fun _ raw => .text raw) := by
  intro e he
  obtain ⟨option, _, rfl⟩ := List.mem_map.mp he
  exact .inr ⟨hs.key? _, hs.2, rfl⟩

theorem IsFree.render_text (hs : s.IsFree) (m : OptionMap) :
    s.render (m.mapValues fun _ raw => .text raw) = m := by
  apply SortedMap.ext
  rw [(hs.admissible m).entries_render]
  change (m.entries.map _).map _ = m.entries
  rw [List.map_map]
  exact List.map_id _

theorem IsFree.extract (hs : s.IsFree) (m : OptionMap) :
    s.extract m = .ok (m.mapValues fun _ raw => .text raw) := by
  have h := (hs.admissible m).extract_render
  rwa [hs.render_text] at h

theorem IsFree.encodeOptions (hs : s.IsFree) (options : List ConfigOption) :
    s.encodeOptions options = .ok (flattenOptions options) := by
  rw [encodeOptions_eq, hs.extract, Except.map, hs.render_text]

theorem session_isFree : session.IsFree := ⟨rfl, rfl⟩

theorem emane_isFree : emane.IsFree := ⟨rfl, rfl⟩

theorem emaneModel_isFree : emaneModel.IsFree := ⟨rfl, rfl⟩

end OptionSchema

namespace Operation

/-- Why an operation makes no call. -/
def obstacle? : Operation → Option ConnectError
  | editNode node => if node.id.isNone then some (.missingNodeId "edit_node") else none
  | getNodeWlanConfig node =>
    if node.id.isNone then some (.missingNodeId "get_wlan_config") else none
  | setNodeWlanConfig node _ =>
    if node.id.isNone then some (.missingNodeId "set_wlan_config") else none
  | createLink link => link.badMask?.map fun mask => .mapping (.invalidNumber "ip6_mask" mask)
  | _ => none

/-- The session that an operation is about: the one it is given, or else that of the context. -/
def sessionId? (ctx : SessionContext) : Operation → Option Int32
  | createSession | listSessions | openXml _ | getServices => none
  | deleteSession sessionId | getSession sessionId => some sessionId
  | _ => some ctx.id

/-- There is a call exactly when nothing stands in its way. -/
def HingesOn (call : Except ConnectError Call) : Option ConnectError → Prop
  | none => ∃ c, call = .ok c
  | some e => call = .error e

theorem hingesOn_nodeId (node : Node) (operation : String) (makeUp : Int32 → Call) :
    HingesOn (node.id.elim (.error (.missingNodeId operation)) .ok >>= fun id => .ok (makeUp id))
      (if node.id.isNone then some (.missingNodeId operation) else none) := by
  cases node.id with
  | none => exact rfl
  | some id => exact ⟨makeUp id, rfl⟩

theorem hingesOn_link (link : Link) (makeUp : Wire.Link → Call) :
    HingesOn (link.toWire.mapError ConnectError.mapping >>= fun wire => .ok (makeUp wire))
      (link.badMask?.map fun mask => .mapping (.invalidNumber "ip6_mask" mask)) := by
  have h := link.toWire_blames
  cases hbad : link.badMask? with
  | none =>
    rw [hbad] at h
    obtain ⟨wire, hwire⟩ := h
    rw [hwire]
    exact ⟨makeUp wire, rfl⟩
  | some mask =>
    rw [hbad] at h
    rw [show link.toWire = _ from h]
    exact rfl

theorem hingesOn_options {schema : OptionSchema} (hfree : schema.IsFree)
    (options : List ConfigOption) (makeUp : OptionMap → Call) :
    HingesOn ((schema.encodeOptions options).mapError ConnectError.mapping >>= fun config =>
      .ok (makeUp config)) none := by
  rw [hfree.encodeOptions]
  exact ⟨makeUp (flattenOptions options), rfl⟩

theorem call_hingesOn (ctx : SessionContext) (o : Operation) :
    HingesOn (o.call ctx) o.obstacle? := by
  cases o with
  | editNode node => exact hingesOn_nodeId node _ _
  | getNodeWlanConfig node => exact hingesOn_nodeId node _ _
  | setNodeWlanConfig node config => exact hingesOn_nodeId node _ _
  | createLink link => exact hingesOn_link link _
  | setSessionOptions options =>
    exact hingesOn_options OptionSchema.session_isFree options _
  | setEmaneConfig options =>
    exact hingesOn_options OptionSchema.emane_isFree options _
  | setEmaneModelConfig nodeId model options =>
    exact hingesOn_options OptionSchema.emaneModel_isFree options _
  | _ => exact ⟨_, rfl⟩

/-- Whatever goes into a call that can be made up, the call is about the same session. -/
theorem sessionId?_of_bind {α : Type} {value : Except ConnectError α} {makeUp : α → Call}
    {sessionId : Option Int32} {c : Call} (h : (value >>= fun a => .ok (makeUp a)) = Except.ok c)
    (hsession : ∀ a, (makeUp a).sessionId? = sessionId) : c.sessionId? = sessionId := by
  cases value with
  | error e => cases h
  | ok a =>
    cases h
    exact hsession a

theorem call_sessionId? {ctx : SessionContext} {o : Operation} {c : Call}
    (h : o.call ctx = .ok c) : c.sessionId? = o.sessionId? ctx := by
  cases o with
  | setSessionOptions _ => exact sessionId?_of_bind h fun _ => rfl
  | editNode _ => exact sessionId?_of_bind h fun _ => rfl
  | createLink _ => exact sessionId?_of_bind h fun _ => rfl
  | getNodeWlanConfig _ => exact sessionId?_of_bind h fun _ => rfl
  | setNodeWlanConfig _ _ => exact sessionId?_of_bind h fun _ => rfl
  | setEmaneConfig _ => exact sessionId?_of_bind h fun _ => rfl
  | setEmaneModelConfig _ _ _ => exact sessionId?_of_bind h fun _ => rfl
  | _ =>
    cases h
    rfl

end Operation

/-- What the client does with a service for each of the four actions. -/
def Client.serviceHelper :
    ServiceAction → Int32 → String → SessionContext → ClientM Bool
  | .start => Client.startService
  | .stop => Client.stopService
  | .restart => Client.restartService
  | .validate => Client.validateService

theorem Client.serviceHelper_makes (action : ServiceAction) (nodeId : Int32) (service : String)
    (ctx : SessionContext) :
    Makes (serviceHelper action nodeId service ctx)
      (.ok ⟨.serviceAction, { sessionId := ctx.id, nodeId, service, action := action.number }⟩)
      := by
  cases action <;> exact makes_request _ (by simp)

/-- In every world an operation makes one call, that of its own capability, about its own session
and made up of its arguments. It makes none exactly when it is obstructed, and then it ends in the
error that says why. The four actions on a service are one call each as well. -/
theorem operation_makes_one_call {σ : Type} (world : World σ) (s : σ) (ctx : SessionContext) :
    (∀ o : Operation,
      let program := o.perform.run.run ctx
      match o.obstacle? with
      | none => ∃ c answer, program.trace world s = [⟨c, answer⟩] ∧ o.call ctx = .ok c ∧
          c.method = o.method ∧ c.sessionId? = o.sessionId? ctx
      | some e => program.trace world s = [] ∧ (program.run world s).1.1 = .error e) ∧
    ∀ (action : ServiceAction) (nodeId : Int32) (service : String), ∃ answer,
      (Client.serviceHelper action nodeId service ctx).run.trace world s =
        [⟨⟨.serviceAction, { sessionId := ctx.id, nodeId, service, action := action.number }⟩,
          answer⟩] := by
  constructor
  · intro o program
    have hturns := Operation.perform_turns (program.yields_run world s)
    have hcall := o.call_hingesOn ctx
    cases hobstacle : o.obstacle? with
    | none =>
      rw [hobstacle] at hcall
      obtain ⟨c, hc⟩ := hcall
      rw [hc] at hturns
      obtain ⟨answer, ht⟩ := hturns
      exact ⟨c, answer, ht, hc, Operation.call_method hc, Operation.call_sessionId? hc⟩
    | some e =>
      rw [hobstacle] at hcall
      rw [show o.call ctx = .error e from hcall] at hturns
      exact hturns
  · intro action nodeId service
    exact Client.serviceHelper_makes action nodeId service ctx _ _ (Program.yields_run world _ s)

end EmuControl
