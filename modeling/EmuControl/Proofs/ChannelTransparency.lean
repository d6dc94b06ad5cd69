import EmuControl.Daemon.Transport
import EmuControl.Proofs.Deed
import EmuControl.Proofs.MessageRoundTrip
import EmuControl.Proofs.SessionContext

/-!
# The channel makes no difference

A program that reaches the scripted daemon through a channel comes to the same end as one that calls
it directly, and leaves the same calls behind. The client's end of the channel announces each call
in the log, so the logs differ; nothing else does.

The argument has two parts. One call through the channel is the call itself, as long as the request
and the response can be carried (`Recording.serve_connect`). Two daemons that agree on the calls of
a run cannot be told apart by it (`Machine.run_announcing`).
-/
namespace EmuControl

open Wire

theorem Wire.Method.ofName?_name (m : Method) : ofName? m.name = some m := by
  cases m <;> decide +kernel

theorem Wire.Method.path_inj {m n : Method} : m.path = n.path ↔ m.name = n.name := by
  rw [path_eq, path_eq, String.append_right_inj]

theorem Wire.Method.ofPath?_path (m : Method) : ofPath? m.path = some m := by
  simp only [ofPath?, path_inj]
  exact ofName?_name m

/-- The channel can carry the request and, if there is one, the response. -/
def Turn.Carried (limit : Option Nat) (turn : Turn) : Prop :=
  Message.Fits turn.call.request ∧
    match turn.answer with
    | .ok response => Message.Fits response ∧ ∀ l ∈ limit, (Message.encode response).length ≤ l
    | .error _ => True

instance (limit : Option Nat) : DecidablePred (Turn.Carried limit)
  | ⟨c, .ok response⟩ => inferInstanceAs (Decidable (Message.Fits c.request ∧
      Message.Fits response ∧ ∀ l ∈ limit, (Message.encode response).length ≤ l))
  | ⟨c, .error _⟩ => inferInstanceAs (Decidable (Message.Fits c.request ∧ True))

namespace Recording

/-- The bytes given for each method are a response of that method. -/
def Replayable (r : Recording) : Prop :=
  ∀ m bytes, r.canned m = some bytes → (Message.decode? bytes : Option m.Response).isSome = true

theorem Replayable.reply {r : Recording} (h : r.Replayable) (c : Call) :
    (reply c r).2.Replayable := by
  obtain ⟨id, hstate⟩ := reply_state c r
  rw [hstate]
  exact h

/-- A call fails with a status only. -/
theorem Replayable.error_status {r : Recording} (h : r.Replayable) {c : Call} {e : ApiError}
    (he : (Recording.reply c r).1 = .error e) : ∃ s, e = .status s := by
  simp only [Recording.reply] at he
  split at he
  · cases he
    exact ⟨_, rfl⟩
  · split at he
    · cases he
    · cases he
      exact ⟨_, rfl⟩
  · split at he
    · next bytes hbytes =>
      obtain ⟨answer, hanswer⟩ := Option.isSome_iff_exists.mp (h c.method bytes hbytes)
      rw [hanswer] at he
      cases he
    · cases he

/-- A call through the channel is the call itself. -/
theorem serve_connect {r : Recording} (hr : r.Replayable) {limit : Option Nat} {c : Call}
    (hc : Turn.Carried limit ⟨c, (reply c r).1⟩) :
    reply.serve.connect limit c r = reply c r := by
  obtain ⟨hrequest, hanswer⟩ := hc
  have hdecode : Message.decode? c.payload = some c.request :=
    Message.decode?_encode c.method.request_sound hrequest
  simp only [Server.connect, Daemon.serve, Method.ofPath?_path, hdecode]
  rcases hreply : reply c r with ⟨(e | response), r'⟩
  · obtain ⟨s, rfl⟩ : ∃ s, e = .status s := hr.error_status (by rw [hreply])
    rfl
  · rw [hreply] at hanswer
    obtain ⟨hfits, hlimit⟩ := hanswer
    have hfilter : limit.filter (· < (Message.encode response).length) = none := by
      rw [Option.filter_eq_none_iff]
      intro l hl
      simpa using hlimit l hl
    simp only [hfilter, Message.decode?_encode c.method.response_sound hfits]

end Recording

namespace Machine

variable {α σ : Type} {direct remote : Daemon σ} {m m' : Machine σ}

/-- The machine without its log. -/
def unlogged (m : Machine σ) : Machine σ :=
  { m with log := [] }

theorem unlogged_foldl_log (daemon : Daemon σ) (events : List Log.Event) (m : Machine σ) :
    (events.foldl (fun m e => (world daemon (.log e) m).2) m).unlogged = m.unlogged := by
  induction events generalizing m with
  | nil => rfl
  | cons e events ih => exact ih _

/-- The answer to an action does not depend on the log, and on the daemon only for a call. -/
theorem world_congr (h : m'.unlogged = m.unlogged) {a : Action}
    (hcall : ∀ c, a = .call c → remote c m.daemon = direct c m.daemon) :
    (world remote a m').1 = (world direct a m).1 ∧
      (world remote a m').2.unlogged = (world direct a m).2.unlogged := by
  obtain ⟨daemon, files, log, output, complaints⟩ := m
  obtain ⟨daemon', files', log', output', complaints'⟩ := m'
  simp only [unlogged, mk.injEq] at h
  obtain ⟨rfl, rfl, -, rfl, rfl⟩ := h
  cases a with
  | call c => simp [world, hcall c rfl, unlogged]
  | writeFile name contents =>
    simp only [world]
    split <;> simp [unlogged]
  | _ => simp [world, unlogged]

theorem announcing_congr (h : m'.unlogged = m.unlogged) {a : Action}
    (hcall : ∀ c, a = .call c → remote c m.daemon = direct c m.daemon) :
    ((world remote).announcing a m').1 = (world direct a m).1 ∧
      ((world remote).announcing a m').2.unlogged = (world direct a m).2.unlogged := by
  cases a with
  | call c => exact world_congr ((unlogged_foldl_log remote (announcements c) m').trans h) hcall
  | _ => exact world_congr h hcall

/-- What is known of the daemon's state holds after an action if a call keeps it up. -/
theorem world_daemon {Inv : σ → Prop} (hinv : ∀ c s, Inv s → Inv (direct c s).2)
    (hm : Inv m.daemon) (a : Action) : Inv (world direct a m).2.daemon := by
  cases a with
  | call c => exact hinv c m.daemon hm
  | writeFile name contents =>
    simp only [world]
    split <;> exact hm
  | _ => exact hm

/-- Two daemons that agree on what is carried give a run the same end, when everything in the run is
carried. `Inv` is what the agreement needs to know of a daemon's state. -/
theorem run_announcing {Inv : σ → Prop} {Carried : Turn → Prop}
    (hinv : ∀ c s, Inv s → Inv (direct c s).2)
    (hagree : ∀ c s, Inv s → Carried ⟨c, (direct c s).1⟩ → remote c s = direct c s)
    (p : Program α) (hm : Inv m.daemon) (hcarried : ∀ turn ∈ p.trace (world direct) m, Carried turn)
    (h : m'.unlogged = m.unlogged) :
    (p.run (world remote).announcing m').1 = (p.run (world direct) m).1 ∧
      (p.run (world remote).announcing m').2.unlogged = (p.run (world direct) m).2.unlogged := by
  induction p generalizing m m' with
  | done a => exact ⟨rfl, h⟩
  | act a next ih =>
    have hcall : ∀ c, a = .call c → remote c m.daemon = direct c m.daemon := by
      rintro c rfl
      exact hagree c m.daemon hm (hcarried _ List.mem_cons_self)
    obtain ⟨hanswer, hstate⟩ := announcing_congr h hcall
    simp only [Program.run]
    rw [hanswer]
    refine ih _ (world_daemon hinv hm a) (fun turn hturn => ?_) hstate
    exact hcarried turn (List.mem_append_right _ hturn)

end Machine

/-- For every program: over a channel it comes to the same end, and leaves the same machine but for
the log. -/
theorem Recording.run_announceCalls {α : Type} (limit : Option Nat) (p : Program α)
    {m : Machine Recording} (hm : m.daemon.Replayable)
    (hcarried : ∀ turn ∈ p.trace (Machine.world reply) m, turn.Carried limit) :
    (p.announceCalls.run (Machine.world (reply.serve.connect limit)) m).1 =
        (p.run (Machine.world reply) m).1 ∧
      (p.announceCalls.run (Machine.world (reply.serve.connect limit)) m).2.unlogged =
        (p.run (Machine.world reply) m).2.unlogged := by
  rw [(Program.announceCalls_in _ p m).1]
  have hinv : ∀ c r, Replayable r → Replayable (reply c r).2 := fun c _ hr => hr.reply c
  exact Machine.run_announcing hinv (fun _ _ hr hc => serve_connect hr hc) p hm hcarried rfl

/-- Something to be done with the daemon: on a context, or by a workflow. -/
inductive Task where
  | onContext (a : Activity)
  | attach (sessionId : Int32)
  | start (sessionId : Option Int32) (t : Topology)
  | stop (sessionId : Int32)
  | setState (sessionId : Int32) (state : SessionState)
  | delete (sessionId : Int32)
  | saveXml (sessionId : Int32) (path : String)
  | openXml (path : String)

namespace Task

/-- What comes of a task. -/
abbrev Result : Task → Type
  | onContext a => Except ConnectError a.Result × SessionContext
  | attach _ | start _ _ | stop _ | setState _ _ => Except WorkflowError SessionContext
  | delete _ => Except WorkflowError Unit
  | saveXml _ _ => Except WorkflowError Nat
  | openXml _ => Except WorkflowError Int32

def perform : (task : Task) → SessionContext → Program task.Result
  | onContext a, ctx => a.perform.run.run ctx
  | attach sessionId, _ => (Workflow.attach sessionId).run
  | start sessionId t, _ => (Workflow.start sessionId t).run
  | stop sessionId, _ => (Workflow.stop sessionId).run
  | setState sessionId state, _ => (Workflow.setState sessionId state).run
  | delete sessionId, _ => (Workflow.delete sessionId).run
  | saveXml sessionId path, _ => (Workflow.saveXml sessionId path).run
  | openXml path, _ => (Workflow.openXml path).run

/-- The context to go on with: the one that the task gives, if it gives one. -/
def after : (task : Task) → SessionContext → task.Result → SessionContext
  | onContext (.operation .createSession), ctx, (result, _) => result.toOption.getD ctx
  | onContext _, _, (_, ctx) => ctx
  | attach _, ctx, result | start _ _, ctx, result | stop _, ctx, result
  | setState _ _, ctx, result => result.toOption.getD ctx
  | delete _, ctx, _ | saveXml _ _, ctx, _ | openXml _, ctx, _ => ctx

/-- Does one task after the other, whatever comes of each, and keeps all that comes of them. -/
def performAll : List Task → SessionContext → Program (List ((task : Task) × task.Result))
  | [], _ => return []
  | task :: rest, ctx => do
    let result ← task.perform ctx
    let results ← performAll rest (task.after ctx result)
    return ⟨task, result⟩ :: results

end Task

/-- Whatever is done with the scripted daemon over a channel has the results and contexts that it
has without one, and leaves the same calls, the same files and the same output. Only the log has
more events. A `limit` is the longest response that the client accepts. -/
theorem channel_transparent (limit : Option Nat) (tasks : List Task) (ctx : SessionContext)
    (m : Machine Recording) (hm : m.daemon.Replayable)
    (hcarried : ∀ turn ∈ (Task.performAll tasks ctx).trace (Machine.world Recording.reply) m,
      turn.Carried limit) :
    let direct := (Task.performAll tasks ctx).run (Machine.world Recording.reply) m
    let remote := (Task.performAll tasks ctx).announceCalls.run
      (Machine.world (Recording.reply.serve.connect limit)) m
    remote.1 = direct.1 ∧ remote.2 = { direct.2 with log := remote.2.log } := by
  intro direct remote
  obtain ⟨hresult, hmachine⟩ := Recording.run_announceCalls limit _ hm hcarried
  refine ⟨hresult, ?_⟩
  calc remote.2
      = { remote.2.unlogged with log := remote.2.log } := rfl
    _ = { direct.2 with log := remote.2.log } := by rw [hmachine]; rfl

/-- A daemon that was told to give options, to fail the first listing, and to refuse the second
link. -/
def scriptedMachine : Machine Recording where
  daemon :=
    (((({} : Recording).respondWith .getSessionOptions
      (Message.encode (⟨[⟨"", [⟨"a", "", "1", 0, []⟩]⟩]⟩ : OptionGroups))).failOn
        .getSessions 1).rejectOn .addLink 2)

def mixedTasks : Program (List ((task : Task) × task.Result)) :=
  Task.performAll
    [.onContext (.operation .listSessions), .start none { links := [.between 1 2, .between 2 3] },
      .onContext (.operation .createSession), .onContext (.operation .getSessionOptionMap),
      .saveXml 1 "s.xml", .openXml "s.xml", .stop 1] ⟨1, .definition⟩

theorem mixedTasks_transparent :
    let direct := mixedTasks.run (Machine.world Recording.reply) scriptedMachine
    let remote := mixedTasks.announceCalls.run
      (Machine.world (Recording.reply.serve.connect (some 4194304))) scriptedMachine
    remote.1 = direct.1 ∧ remote.2.daemon.calls = direct.2.daemon.calls ∧
      direct.2.daemon.calls.map (·.method) = [.getSessions, .createSession, .setSessionState,
        .setSessionState, .addLink, .addLink, .createSession, .getSessionOptions, .getSession,
        .saveXml, .openXml, .getSession, .setSessionState] := by
  have hreplayable : scriptedMachine.daemon.Replayable := by
    intro m bytes h
    simp only [scriptedMachine, Recording.rejectOn, Recording.failOn, Recording.script,
      Recording.respondWith] at h
    split at h
    · next heq =>
      subst heq
      cases h
      decide +kernel
    · cases h
  have hcarried : ∀ turn ∈ mixedTasks.trace (Machine.world Recording.reply) scriptedMachine,
      turn.Carried (some 4194304) := by
    decide +kernel
  obtain ⟨hresults, hmachine⟩ :=
    channel_transparent (some 4194304) _ _ scriptedMachine hreplayable hcarried
  refine ⟨hresults, ?_, by decide +kernel⟩
  exact congrArg (·.daemon.calls) hmachine

end EmuControl
