import EmuControl.Proofs.MessageRoundTrip

/-!
# The scripted daemon after any history

A scripted daemon keeps what it needs to know of everything that was done with it: the calls since
the last `clear` and how many there were of each method, what is scripted and given, and how many
nodes it has numbered. `History` is what was done, event by event. Clones of a daemon share one
recording, so it makes no difference through which of them an event came.

One event keeps the recording in accord with the history, and so does any run of events. The answer
to a call is then read off the history, and hangs on nothing in it but what is about the method.
-/
namespace EmuControl.Recording

open Wire

/-- What can be done with a scripted daemon. -/
inductive Event where
  | call (c : Call)
  | failOn (m : Method) (nth : Nat)
  | rejectOn (m : Method) (nth : Nat)
  | respondWith (m : Method) (bytes : Bytes)
  | clear

namespace Event

def apply (r : Recording) : Event → Recording
  | call c => (reply c r).2
  | failOn m nth => r.failOn m nth
  | rejectOn m nth => r.rejectOn m nth
  | respondWith m bytes => r.respondWith m bytes
  | clear => r.clear

def isClear : Event → Bool
  | clear => true
  | _ => false

def call? : Event → Option Call
  | call c => some c
  | _ => none

/-- What the event scripts for the `nth` call of a method. -/
def outcome? (m : Method) (nth : Nat) : Event → Option Outcome
  | failOn m' nth' => if m = m' ∧ nth = nth' then some .fault else none
  | rejectOn m' nth' => if m = m' ∧ nth = nth' then some .reject else none
  | _ => none

/-- What the event gives for a method. -/
def canned? (m : Method) : Event → Option Bytes
  | respondWith m' bytes => if m = m' then some bytes else none
  | _ => none

end Event

/-- What was done with a scripted daemon since it was made, latest event first. -/
abbrev History := List Event

/-- The recording that a history leaves. -/
def after : History → Recording
  | [] => {}
  | e :: earlier => e.apply (after earlier)

namespace History

/-- The calls since the last `clear`, in order of arrival. -/
def calls (h : History) : List Call :=
  ((h.takeWhile fun e => !e.isClear).filterMap Event.call?).reverse

/-- How many calls of a method there were since the last `clear`. -/
def number (h : History) (m : Method) : Nat :=
  h.calls.countP fun c => c.method = m

/-- What was last scripted for the `nth` call of a method. -/
def outcome? (h : History) (m : Method) (nth : Nat) : Option Outcome :=
  h.findSome? (Event.outcome? m nth)

/-- What was last given for a method. -/
def canned? (h : History) (m : Method) : Option Bytes :=
  h.findSome? (Event.canned? m)

/-- What is scripted for the next call of a method. -/
def next? (h : History) (m : Method) : Option Outcome :=
  h.outcome? m (h.number m + 1)

/-- How many nodes were added in all. -/
def additions (h : History) : Nat :=
  (h.filterMap Event.call?).countP fun c => c.method = .addNode

/-- How many nodes were added with nothing scripted or given for the call. -/
def plainAdditions : History → Nat
  | [] => 0
  | .call c :: earlier =>
    if c.method = .addNode ∧ next? earlier .addNode = none ∧ canned? earlier .addNode = none then
      plainAdditions earlier + 1
    else plainAdditions earlier
  | _ :: earlier => plainAdditions earlier

theorem calls_call (c : Call) (h : History) : calls (.call c :: h) = h.calls ++ [c] := by
  simp [calls, Event.isClear, Event.call?]

theorem calls_clear (h : History) : calls (.clear :: h) = [] := by
  simp [calls, Event.isClear]

/-- Only calls and clearing change which calls there are. -/
theorem calls_cons_of_neither {e : Event} (hclear : e.isClear = false) (hcall : e.call? = none)
    (h : History) : calls (e :: h) = h.calls := by
  simp [calls, hclear, hcall]

theorem number_call (c : Call) (h : History) (m : Method) :
    number (.call c :: h) m = h.number m + if c.method = m then 1 else 0 := by
  simp [number, calls_call, List.countP_append, List.countP_singleton]

theorem outcome?_cons (e : Event) (h : History) (m : Method) (nth : Nat) :
    outcome? (e :: h) m nth = (e.outcome? m nth).or (h.outcome? m nth) := by
  rw [outcome?, List.findSome?_cons]
  cases e.outcome? m nth <;> rfl

theorem canned?_cons (e : Event) (h : History) (m : Method) :
    canned? (e :: h) m = (e.canned? m).or (h.canned? m) := by
  rw [canned?, List.findSome?_cons]
  cases e.canned? m <;> rfl

theorem plainAdditions_le (h : History) : h.plainAdditions ≤ h.additions := by
  induction h with
  | nil => exact Nat.le_refl 0
  | cons e h ih =>
    cases e with
    | call c =>
      have hcount : additions (.call c :: h) =
          additions h + if c.method = .addNode then 1 else 0 := by
        simp [additions, Event.call?, List.countP_cons]
      rw [plainAdditions, hcount]
      split
      · rename_i hplain
        rw [if_pos hplain.1]
        omega
      · omega
    | _ => exact ih

end History

/-- The recording holds what there is to know of the history. -/
structure Reflects (r : Recording) (h : History) : Prop where
  calls : r.calls = h.calls
  counts : ∀ m, r.counts m = h.number m
  outcomes : ∀ m nth, r.outcomes m nth = h.outcome? m nth
  canned : ∀ m, r.canned m = h.canned? m
  lastNodeId : r.lastNodeId = Int32.ofNat h.plainAdditions

/-! How a call is answered, case by case -/

section Reply

variable {c : Call} {r : Recording}

theorem record_counts_self (r : Recording) (c : Call) :
    (r.record c).counts c.method = r.counts c.method + 1 := by
  rw [record_counts, if_pos rfl]

theorem reply_of_fault (h : r.outcomes c.method (r.counts c.method + 1) = some .fault) :
    reply c r =
      (.error (.status
        ⟨.unavailable, scriptedMessage c.method (r.counts c.method + 1) "failed", none⟩),
        r.record c) := by
  have hscript : (r.record c).outcomes c.method (r.counts c.method + 1) = some .fault := h
  simp only [reply, record_counts_self, hscript]

theorem reply_of_reject (h : r.outcomes c.method (r.counts c.method + 1) = some .reject)
    (hack : c.method.acknowledges = true) :
    reply c r =
      (.ok ((r.record c).answerPlainly c false).1, ((r.record c).answerPlainly c false).2) := by
  have hscript : (r.record c).outcomes c.method (r.counts c.method + 1) = some .reject := h
  simp only [reply, record_counts_self, hscript, hack, if_true]

theorem reply_of_reject_unacknowledged
    (h : r.outcomes c.method (r.counts c.method + 1) = some .reject)
    (hack : c.method.acknowledges = false) :
    reply c r =
      (.error (.status
        ⟨.failedPrecondition, scriptedMessage c.method (r.counts c.method + 1) "rejected", none⟩),
        r.record c) := by
  have hscript : (r.record c).outcomes c.method (r.counts c.method + 1) = some .reject := h
  simp only [reply, record_counts_self, hscript, hack, Bool.false_eq_true, if_false]

theorem reply_of_bytes (h : r.outcomes c.method (r.counts c.method + 1) = none) {bytes : Bytes}
    (hcanned : r.canned c.method = some bytes) :
    reply c r =
      (match Message.decode? bytes with
        | some answer => .ok answer
        | none => .error (.malformedResponse c.method.name undecodable), r.record c) := by
  have hscript : (r.record c).outcomes c.method (r.counts c.method + 1) = none := h
  have hbytes : (r.record c).canned c.method = some bytes := hcanned
  simp only [reply, record_counts_self, hscript, hbytes]
  cases (Message.decode? bytes : Option c.method.Response) <;> rfl

theorem reply_of_plain (h : r.outcomes c.method (r.counts c.method + 1) = none)
    (hcanned : r.canned c.method = none) :
    reply c r =
      (.ok (plainResponse c.method c.request true (r.lastNodeId + 1)),
        ((r.record c).answerPlainly c true).2) := by
  have hscript : (r.record c).outcomes c.method (r.counts c.method + 1) = none := h
  have hbytes : (r.record c).canned c.method = none := hcanned
  simp only [reply, record_counts_self, hscript, hbytes]
  rfl

theorem answerPlainly_lastNodeId (accepted : Bool) :
    ((r.record c).answerPlainly c accepted).2.lastNodeId =
      if c.method = .addNode then r.lastNodeId + 1 else r.lastNodeId := by
  rw [answerPlainly]
  split_ifs <;> rfl

/-- The last id moves on exactly when a node is added with nothing scripted or given for the call:
a refused addition has no answer to put an id in. -/
theorem reply_lastNodeId (c : Call) (r : Recording) :
    (reply c r).2.lastNodeId =
      if c.method = .addNode ∧ r.outcomes c.method (r.counts c.method + 1) = none ∧
          r.canned c.method = none then r.lastNodeId + 1
      else r.lastNodeId := by
  cases hscript : r.outcomes c.method (r.counts c.method + 1) with
  | some outcome =>
    rw [if_neg (fun hplain => Option.some_ne_none _ hplain.2.1)]
    cases outcome with
    | fault => rw [reply_of_fault hscript]; rfl
    | reject =>
      cases hack : c.method.acknowledges with
      | false => rw [reply_of_reject_unacknowledged hscript hack]; rfl
      | true =>
        have hmethod : c.method ≠ .addNode := by
          intro hadd
          rw [hadd] at hack
          cases hack
        rw [reply_of_reject hscript hack, answerPlainly_lastNodeId, if_neg hmethod]
  | none =>
    cases hcanned : r.canned c.method with
    | some bytes =>
      rw [reply_of_bytes hscript hcanned, if_neg (fun hplain => Option.some_ne_none _ hplain.2.2)]
      rfl
    | none =>
      rw [reply_of_plain hscript hcanned, answerPlainly_lastNodeId]
      simp

/-- Only an answer that numbers a node tells one fresh id from another. -/
theorem plainResponse_freshId {m : Method} (hm : m ≠ .addNode) (request : m.Request)
    (accepted : Bool) (i j : Int32) :
    plainResponse m request accepted i = plainResponse m request accepted j := by
  cases m with
  | addNode => exact absurd rfl hm
  | _ => rfl

theorem isPositive_of_unacknowledged {m : Method} (hack : m.acknowledges = false)
    (response : m.Response) : m.isPositive response = true := by
  rw [Method.acknowledges_eq_isSome, Option.isSome_eq_false_iff, Option.isNone_iff_eq_none] at hack
  unfold Method.isPositive
  split
  · rfl
  · rename_i verdict hverdict
    cases hack.symm.trans hverdict

theorem isPositive_plainResponse (m : Method) (hack : m.acknowledges = true)
    (request : m.Request) (accepted : Bool) (freshId : Int32) :
    m.isPositive (plainResponse m request accepted freshId) = accepted := by
  cases m <;> first | rfl | cases hack

/-- The answer hangs on what is known about the method, and on the last id for an addition. -/
theorem reply_congr {r' : Recording} (hcounts : r.counts c.method = r'.counts c.method)
    (houtcomes : r.outcomes c.method (r.counts c.method + 1) =
      r'.outcomes c.method (r'.counts c.method + 1))
    (hcanned : r.canned c.method = r'.canned c.method)
    (hid : c.method = .addNode → r.lastNodeId = r'.lastNodeId) :
    (reply c r).1 = (reply c r').1 := by
  cases hscript : r'.outcomes c.method (r'.counts c.method + 1) with
  | some outcome =>
    rw [hscript] at houtcomes
    cases outcome with
    | fault => rw [reply_of_fault hscript, reply_of_fault houtcomes, hcounts]
    | reject =>
      cases hack : c.method.acknowledges with
      | false =>
        rw [reply_of_reject_unacknowledged hscript hack,
          reply_of_reject_unacknowledged houtcomes hack, hcounts]
      | true =>
        have hmethod : c.method ≠ .addNode := by
          intro hadd
          rw [hadd] at hack
          cases hack
        rw [reply_of_reject hscript hack, reply_of_reject houtcomes hack]
        exact congrArg Except.ok (plainResponse_freshId hmethod _ _ _ _)
  | none =>
    rw [hscript] at houtcomes
    cases hbytes : r'.canned c.method with
    | some bytes =>
      rw [hbytes] at hcanned
      rw [reply_of_bytes hscript hbytes, reply_of_bytes houtcomes hcanned]
    | none =>
      rw [hbytes] at hcanned
      rw [reply_of_plain hscript hbytes, reply_of_plain houtcomes hcanned]
      by_cases hadd : c.method = .addNode
      · rw [hid hadd]
      · exact congrArg Except.ok (plainResponse_freshId hadd _ _ _ _)

end Reply

namespace Reflects

variable {r : Recording} {h : History}

theorem call (hr : r.Reflects h) (c : Call) : (reply c r).2.Reflects (.call c :: h) := by
  obtain ⟨id, hstate⟩ := reply_state c r
  have hid := reply_lastNodeId c r
  constructor
  · rw [hstate, History.calls_call, ← hr.calls]
    rfl
  · intro m
    rw [hstate, History.number_call, ← hr.counts]
    exact record_counts r c m
  · intro m nth
    rw [hstate, History.outcome?_cons, ← hr.outcomes]
    rfl
  · intro m
    rw [hstate, History.canned?_cons, ← hr.canned]
    rfl
  · rw [hid, hr.counts, hr.outcomes, hr.canned, hr.lastNodeId, History.plainAdditions]
    by_cases hadd : c.method = .addNode
    · rw [hadd, History.next?]
      split_ifs
      · exact (Int32.ofNat_add h.plainAdditions 1).symm
      · rfl
    · rw [if_neg (fun hplain => hadd hplain.1), if_neg (fun hplain => hadd hplain.1)]

theorem script (hr : r.Reflects h) {e : Event} {m : Method} {nth : Nat} {outcome : Outcome}
    (he : e.isClear = false ∧ e.call? = none ∧ ∀ m, e.canned? m = none)
    (houtcome : ∀ m' nth', e.outcome? m' nth' =
      if m' = m ∧ nth' = nth then some outcome else none)
    (hplain : History.plainAdditions (e :: h) = h.plainAdditions) :
    (r.script m nth outcome).Reflects (e :: h) := by
  have hcalls := History.calls_cons_of_neither he.1 he.2.1 h
  constructor
  · rw [hcalls]
    exact hr.calls
  · intro m'
    rw [History.number, hcalls]
    exact hr.counts m'
  · intro m' nth'
    rw [History.outcome?_cons, houtcome, ← hr.outcomes]
    change (if m' = m ∧ nth' = nth then some outcome else r.outcomes m' nth') = _
    split_ifs <;> rfl
  · intro m'
    rw [History.canned?_cons, he.2.2, ← hr.canned]
    rfl
  · rw [hplain]
    exact hr.lastNodeId

theorem respondWith (hr : r.Reflects h) (m : Method) (bytes : Bytes) :
    (r.respondWith m bytes).Reflects (.respondWith m bytes :: h) := by
  constructor
  · exact hr.calls
  · exact hr.counts
  · exact hr.outcomes
  · intro m'
    rw [History.canned?_cons, ← hr.canned]
    change (if m' = m then some bytes else r.canned m') = (if m' = m then some bytes else none).or _
    split_ifs <;> rfl
  · exact hr.lastNodeId

theorem clear (hr : r.Reflects h) : r.clear.Reflects (.clear :: h) := by
  constructor
  · rw [History.calls_clear]
    rfl
  · intro m
    rw [History.number, History.calls_clear]
    rfl
  · exact hr.outcomes
  · exact hr.canned
  · exact hr.lastNodeId

/-- One event keeps the recording in accord. -/
theorem apply (hr : r.Reflects h) (e : Event) : (e.apply r).Reflects (e :: h) := by
  cases e with
  | call c => exact hr.call c
  | failOn m nth => exact hr.script ⟨rfl, rfl, fun _ => rfl⟩ (fun _ _ => rfl) rfl
  | rejectOn m nth => exact hr.script ⟨rfl, rfl, fun _ => rfl⟩ (fun _ _ => rfl) rfl
  | respondWith m bytes => exact hr.respondWith m bytes
  | clear => exact hr.clear

end Reflects

/-- Every history leaves a recording in accord with it. -/
theorem after_reflects (h : History) : (after h).Reflects h := by
  induction h with
  | nil => exact ⟨rfl, fun _ => rfl, fun _ _ => rfl, fun _ => rfl, rfl⟩
  | cons e earlier ih => exact ih.apply e

theorem count_eq_length_callsTo (h : History) (m : Method) :
    (after h).count m = ((after h).callsTo m).length := by
  have hr := after_reflects h
  rw [count, hr.counts, callsTo, hr.calls, History.number, List.countP_eq_length_filter]

/-- The answer to a call after a history, by what is scripted for it, what is given for its method,
and how many nodes were added plainly before. -/
def Answers (h : History) (c : Call) (answer : Except ApiError c.method.Response) : Prop :=
  match h.next? c.method with
  | some .fault =>
    answer = .error (.status
      ⟨.unavailable, scriptedMessage c.method (h.number c.method + 1) "failed", none⟩)
  | some .reject =>
    if c.method.acknowledges then
      ∃ response, answer = .ok response ∧ c.method.isPositive response = false
    else
      answer = .error (.status
        ⟨.failedPrecondition, scriptedMessage c.method (h.number c.method + 1) "rejected", none⟩)
  | none =>
    match h.canned? c.method with
    | some bytes =>
      match (Message.decode? bytes : Option c.method.Response) with
      | some response => answer = .ok response
      | none => answer = .error (.malformedResponse c.method.name undecodable)
    | none =>
      answer = .ok (plainResponse c.method c.request true (Int32.ofNat (h.plainAdditions + 1)))

theorem reply_answers (h : History) (c : Call) : Answers h c (reply c (after h)).1 := by
  have hr := after_reflects h
  have hscript : (after h).outcomes c.method ((after h).counts c.method + 1) =
      h.next? c.method := by
    rw [hr.outcomes, hr.counts]
    rfl
  have hbytes := hr.canned c.method
  unfold Answers
  cases hnext : h.next? c.method with
  | some outcome =>
    rw [hnext] at hscript
    cases outcome with
    | fault =>
      dsimp only
      rw [reply_of_fault hscript, hr.counts]
    | reject =>
      dsimp only
      cases hack : c.method.acknowledges with
      | true =>
        rw [if_pos rfl, reply_of_reject hscript hack]
        exact ⟨_, rfl, isPositive_plainResponse _ hack _ _ _⟩
      | false =>
        rw [if_neg Bool.false_ne_true, reply_of_reject_unacknowledged hscript hack, hr.counts]
  | none =>
    rw [hnext] at hscript
    dsimp only
    cases hcanned : h.canned? c.method with
    | some bytes =>
      rw [hcanned] at hbytes
      rw [reply_of_bytes hscript hbytes]
      dsimp only
      cases (Message.decode? bytes : Option c.method.Response) <;> rfl
    | none =>
      rw [hcanned] at hbytes
      rw [reply_of_plain hscript hbytes, hr.lastNodeId, Int32.ofNat_add]
      rfl

/-- A plain answer is positive, in its acknowledgment if it carries one. -/
theorem reply_isPositive {h : History} {c : Call} (hnext : h.next? c.method = none)
    (hcanned : h.canned? c.method = none) :
    ∃ response, (reply c (after h)).1 = .ok response ∧ c.method.isPositive response = true := by
  have hanswer := reply_answers h c
  simp only [Answers, hnext, hcanned] at hanswer
  refine ⟨_, hanswer, ?_⟩
  cases hack : c.method.acknowledges with
  | true => exact isPositive_plainResponse _ hack _ _ _
  | false => exact isPositive_of_unacknowledged hack _

/-- A node that is added plainly has the id that is asked for, or the number of such additions. -/
theorem reply_addNode {h : History} {request : NodeAddition}
    (hfew : History.additions (.call ⟨.addNode, request⟩ :: h) < 2 ^ 31)
    (hnext : h.next? .addNode = none) (hcanned : h.canned? .addNode = none) :
    ∃ id : Int32, (reply ⟨.addNode, request⟩ (after h)).1 = .ok ⟨id⟩ ∧
      match request.node.bind (·.id) with
      | some given => id = given
      | none => id.toInt = h.plainAdditions + 1 := by
  have hanswer := reply_answers h ⟨.addNode, request⟩
  simp only [Answers, hnext, hcanned] at hanswer
  have hle := h.plainAdditions_le
  have hadditions : History.additions (.call ⟨.addNode, request⟩ :: h) = h.additions + 1 := by
    simp [History.additions, Event.call?]
  refine ⟨_, hanswer, ?_⟩
  cases request.node.bind (·.id) with
  | some given => rfl
  | none =>
    have hlt : h.plainAdditions + 1 < 2 ^ 31 := by omega
    exact Int32.toInt_ofNat_of_lt hlt

/-- After every history the daemon shows the calls since the last `clear` in order of arrival, and
counts them by method. The next call is answered by what was last scripted for its number, or else
by what was last given for its method, or else plainly. An addition of a node that is answered
plainly is numbered by such additions in all, and an acknowledgment that is given plainly says yes.
So two histories that agree in these things have the same answer, whatever else was done. -/
theorem answers_follow_history (h : History) :
    (after h).calls = h.calls ∧
    (∀ m, (after h).count m = ((after h).callsTo m).length) ∧
    (∀ c, Answers h c (reply c (after h)).1) ∧
    (∀ request : NodeAddition, History.additions (.call ⟨.addNode, request⟩ :: h) < 2 ^ 31 →
      h.next? .addNode = none → h.canned? .addNode = none →
      ∃ id : Int32, (reply ⟨.addNode, request⟩ (after h)).1 = .ok ⟨id⟩ ∧
        match request.node.bind (·.id) with
        | some given => id = given
        | none => id.toInt = h.plainAdditions + 1) ∧
    (∀ c, h.next? c.method = none → h.canned? c.method = none →
      ∃ response, (reply c (after h)).1 = .ok response ∧ c.method.isPositive response = true) ∧
    ∀ (h' : History) (c : Call), h.number c.method = h'.number c.method →
      h.next? c.method = h'.next? c.method → h.canned? c.method = h'.canned? c.method →
      (c.method = .addNode → h.plainAdditions = h'.plainAdditions) →
      (reply c (after h)).1 = (reply c (after h')).1 := by
  have hr := after_reflects h
  refine ⟨hr.calls, count_eq_length_callsTo h, reply_answers h,
    fun request hfew hnext hcanned => reply_addNode hfew hnext hcanned,
    fun c hnext hcanned => reply_isPositive hnext hcanned, ?_⟩
  intro h' c hnumber hnext hcanned hplain
  have hr' := after_reflects h'
  apply reply_congr
  · rw [hr.counts, hr'.counts, hnumber]
  · rw [hr.outcomes, hr'.outcomes, hr.counts, hr'.counts]
    exact hnext
  · rw [hr.canned, hr'.canned, hcanned]
  · intro hadd
    rw [hr.lastNodeId, hr'.lastNodeId, hplain hadd]

/-- Two nodes were added, the second in vain, and the calls forgotten. The script for the second
call will take effect again, and the next node is the second that gets a number. -/
def failedAddition : History :=
  [.clear, .call ⟨.addNode, ⟨1, none⟩⟩, .call ⟨.addNode, ⟨1, none⟩⟩, .failOn .addNode 2]

theorem failedAddition_answer :
    History.additions (.call ⟨.addNode, ⟨1, none⟩⟩ :: failedAddition) < 2 ^ 31 ∧
    failedAddition.next? .addNode = none ∧ failedAddition.canned? .addNode = none ∧
    ∃ id : Int32, (reply ⟨.addNode, ⟨1, none⟩⟩ (after failedAddition)).1 = .ok ⟨id⟩ ∧
      id.toInt = failedAddition.plainAdditions + 1 := by
  have hfew : History.additions (.call ⟨.addNode, ⟨1, none⟩⟩ :: failedAddition) < 2 ^ 31 := by
    decide
  obtain ⟨_, _, _, hadd, _⟩ := answers_follow_history failedAddition
  exact ⟨hfew, rfl, rfl, hadd ⟨1, none⟩ hfew rfl rfl⟩

end EmuControl.Recording
