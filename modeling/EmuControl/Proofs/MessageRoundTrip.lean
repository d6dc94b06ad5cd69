import EmuControl.Daemon.Recording
import EmuControl.Proofs.SchemaRoundTrip
import EmuControl.Wire.Catalogue

/-!
# Messages of the daemon, sent and replayed

The schemas of all messages are sound, so every message is decoded from its encoding. It follows
that the scripted daemon hands every request out as it was sent, and every response that it was
given as it was given, however many calls come in between.
-/
namespace EmuControl

open Wire

namespace Wire

theorem catalogue_sound : ∀ e ∈ recordSchemas ++ exchangeSchemas, e.2.Sound := by
  decide +kernel

namespace Message

variable {α : Type} [Message α]

/-- The length of the encoding is a number of 64 bits, as that of anything held in memory is. -/
def Fits (a : α) : Prop :=
  (encode a).length < 2 ^ 64

instance (a : α) : Decidable (Fits a) :=
  inferInstanceAs (Decidable (_ < _))

theorem decode?_encode (hα : (schema α).Sound) {a : α} (ha : Fits a) :
    decode? (encode a) = some a := by
  rw [decode?, encode, hα.decode_encode ha, Option.map_some, ofFields_fields]

end Message

theorem Method.mem_all (m : Method) : m ∈ all := by
  cases m <;> decide

theorem Method.request_sound (m : Method) : (Message.schema m.Request).Sound := by
  refine catalogue_sound (m.name ++ "Request", _) (List.mem_append_right _ ?_)
  exact List.mem_flatMap.mpr ⟨m, m.mem_all, List.mem_cons_self⟩

theorem Method.response_sound (m : Method) : (Message.schema m.Response).Sound := by
  refine catalogue_sound (m.name ++ "Response", _) (List.mem_append_right _ ?_)
  exact List.mem_flatMap.mpr ⟨m, m.mem_all, List.mem_cons_of_mem _ List.mem_cons_self⟩

end Wire

namespace Recording

theorem record_counts (r : Recording) (c : Call) (m : Method) :
    (r.record c).counts m = r.counts m + if c.method = m then 1 else 0 := by
  simp only [record]
  by_cases h : c.method = m
  · rw [if_pos h, if_pos h.symm]
  · rw [if_neg h, if_neg (Ne.symm h), Nat.add_zero]

theorem answerPlainly_state (r : Recording) (c : Call) (accepted : Bool) :
    ∃ id, (r.answerPlainly c accepted).2 = { r with lastNodeId := id } := by
  rw [answerPlainly]
  split
  · exact ⟨_, rfl⟩
  · exact ⟨r.lastNodeId, rfl⟩

/-- Once a call is kept and counted, the answer changes nothing but the last id. -/
theorem reply_state (c : Call) (r : Recording) :
    ∃ id, (reply c r).2 = { r.record c with lastNodeId := id } := by
  have hsame : ∃ id, r.record c = { r.record c with lastNodeId := id } := ⟨_, rfl⟩
  unfold reply
  dsimp only
  split
  · exact hsame
  · split
    · exact answerPlainly_state (r.record c) c false
    · exact hsame
  · split
    · split
      · exact hsame
      · exact hsame
    · exact answerPlainly_state (r.record c) c true

/-- The recording after a run of calls. -/
def replyAll (r : Recording) (cs : List Call) : Recording :=
  cs.foldl (fun r c => (reply c r).2) r

theorem replyAll_cons (r : Recording) (c : Call) (cs : List Call) :
    r.replyAll (c :: cs) = ((reply c r).2).replyAll cs :=
  rfl

theorem replyAll_calls (r : Recording) (cs : List Call) :
    (r.replyAll cs).calls = r.calls ++ cs := by
  induction cs generalizing r with
  | nil => exact (List.append_nil _).symm
  | cons c cs ih =>
    obtain ⟨id, hstate⟩ := reply_state c r
    rw [replyAll_cons, ih, hstate]
    exact List.append_assoc _ _ _

/-- What was scripted and given stays. -/
theorem replyAll_answers (r : Recording) (cs : List Call) :
    (r.replyAll cs).canned = r.canned ∧ (r.replyAll cs).outcomes = r.outcomes := by
  induction cs generalizing r with
  | nil => exact ⟨rfl, rfl⟩
  | cons c cs ih =>
    obtain ⟨id, hstate⟩ := reply_state c r
    rw [replyAll_cons, (ih _).1, (ih _).2, hstate]
    exact ⟨rfl, rfl⟩

theorem replyAll_counts (r : Recording) (cs : List Call) (m : Method) :
    (r.replyAll cs).counts m = r.counts m + cs.countP (fun c => c.method = m) := by
  induction cs generalizing r with
  | nil => rfl
  | cons c cs ih =>
    obtain ⟨id, hstate⟩ := reply_state c r
    rw [replyAll_cons, ih, hstate, record_counts, List.countP_cons]
    simp only [decide_eq_true_eq]
    omega

/-- A call for which nothing is scripted is answered with the bytes given for its method. -/
theorem reply_of_canned {r : Recording} {m : Method} {request : m.Request} {response : m.Response}
    {bytes : Bytes} (hcanned : r.canned m = some bytes)
    (hdecode : Message.decode? bytes = some response)
    (hscript : r.outcomes m (r.counts m + 1) = none) :
    (reply ⟨m, request⟩ r).1 = .ok response := by
  have hnone : (r.record ⟨m, request⟩).outcomes m ((r.record ⟨m, request⟩).counts m) = none := by
    rw [record_counts, if_pos rfl]
    exact hscript
  have hbytes : (r.record ⟨m, request⟩).canned m = some bytes := hcanned
  simp only [reply, hnone, hbytes, hdecode]

end Recording

/-- Every message is decoded from its encoding. So the requests of a run can be had as they were
sent, and a response that was given for a method is the answer to each of its calls for which
nothing is scripted. -/
theorem messages_round_trip :
    (∀ (α : Type) [Message α],
      Message.schema α ∈ (recordSchemas ++ exchangeSchemas).map (·.2) →
      ∀ a : α, Message.Fits a → Message.decode? (Message.encode a) = some a) ∧
    (∀ (r : Recording) (cs : List Call), (∀ c ∈ cs, Message.Fits c.request) →
      (r.replyAll cs).calls = r.calls ++ cs ∧
        ∀ c ∈ cs, Message.decode? c.payload = some c.request) ∧
    ∀ (r : Recording) (m : Method) (response : m.Response), Message.Fits response →
      ∀ (cs : List Call) (request : m.Request),
        r.outcomes m (r.counts m + cs.countP (fun c => c.method = m) + 1) = none →
        (Recording.reply ⟨m, request⟩
          ((r.respondWith m (Message.encode response)).replyAll cs)).1 = .ok response := by
  refine ⟨fun α _ hα a ha => ?_, fun r cs hcs => ⟨r.replyAll_calls cs, fun c hc => ?_⟩,
    fun r m response hfits cs request hscript => ?_⟩
  · obtain ⟨e, he, heq⟩ := List.mem_map.mp hα
    exact Message.decode?_encode (heq ▸ catalogue_sound e he) ha
  · exact Message.decode?_encode c.method.request_sound (hcs c hc)
  · obtain ⟨hcanned, houtcomes⟩ :=
      (r.respondWith m (Message.encode response)).replyAll_answers cs
    have hdecode := Message.decode?_encode m.response_sound hfits
    refine Recording.reply_of_canned ?_ hdecode ?_
    · rw [hcanned]
      exact if_pos rfl
    · rw [houtcomes, Recording.replyAll_counts]
      exact hscript

/-- A request in which much is set to a default: the unset parts are to stay apart from it. -/
def bareLinkCall : Call where
  method := .addLink
  request :=
    { sessionId := -2147483648
      link := some
        { nodeOne := some 0
          nodeTwo := none
          kind := -7
          interfaceOne := some ⟨none, some "", none, none, some 0, none, none⟩
          interfaceTwo := none
          options := some
            { opaqueData := none, jitter := some ⟨0x80000000⟩, key := some "", mburst := none,
              mer := some ⟨0x7F800001⟩, per := none, bandwidth := none, burst := none,
              delay := some ⟨0⟩, dup := none, unidirectional := false } } }

/-- Options in which one node has an empty group and another one has none. -/
def mobilityOptions : MobilityOptions where
  configs := .ofList [(0, ⟨[]⟩), (-1, ⟨[⟨"", [⟨"a", "", "", -3, ["", "b"]⟩]⟩]⟩)]

theorem bareLinkCall_round_trip :
    Message.Fits bareLinkCall.request ∧ Message.Fits mobilityOptions ∧
    Message.decode? bareLinkCall.payload = some bareLinkCall.request ∧
    Message.decode? (Message.encode mobilityOptions) = some mobilityOptions ∧
    (Recording.reply ⟨.getMobilityConfigs, ⟨1⟩⟩
      ((({} : Recording).respondWith .getMobilityConfigs (Message.encode mobilityOptions)).replyAll
        [bareLinkCall])).1 = .ok mobilityOptions := by
  have hrequest : Message.Fits bareLinkCall.request := by decide +kernel
  have hresponse : Message.Fits mobilityOptions := by decide +kernel
  obtain ⟨htypes, hrequests, hresponses⟩ := messages_round_trip
  refine ⟨hrequest, hresponse, ?_, ?_, ?_⟩
  · exact (hrequests {} [bareLinkCall] (by simpa using hrequest)).2 _ List.mem_cons_self
  · exact htypes MobilityOptions (by decide +kernel) mobilityOptions hresponse
  · exact hresponses {} .getMobilityConfigs mobilityOptions hresponse [bareLinkCall] ⟨1⟩ rfl

end EmuControl
