import EmuControl.Proofs.Deed
import EmuControl.Proofs.ValidatedStart

/-!
# Steps of a command and their faults

A workflow that talks to the daemon takes steps, each of which is one deed: a file is read or
written, or a call is made. `Performs` says how a list of steps is carried out. They are taken in
order, up to the first one that fails or cannot be taken, and its `Fault` is what comes of it.

That a workflow carries out steps is `Enacts`. It holds of a sequence when it holds of the parts.
What happens within a session is not looked at again: a start, a stop and a change of state follow a
`StartPlan`, and `performs_of_executes` turns that into deeds.
-/
namespace EmuControl

open Wire Workflow

/-- Why a step fails. -/
inductive Fault where
  /-- The daemon says no. -/
  | refusal
  /-- A value of a response, or the mask of a link, cannot be mapped. -/
  | unmappable
  /-- A file cannot be read or written. -/
  | file
  /-- A call does not complete: it ends in a status, or its response is malformed. -/
  | incomplete
  /-- A topology file does not parse, or what it says is not valid. -/
  | badTopology
  deriving DecidableEq, Repr

def Fault.status : Fault → Nat
  | refusal | unmappable | file => 1
  | incomplete | badTopology => 2

def Mapped.fault? {α : Type} : Mapped α → Option Fault
  | .ok _ => none
  | .error _ => some .unmappable

/-- What is wrong with a response that is no refusal. -/
def Wire.Method.defect? : (m : Method) → m.Response → Option Fault
  | .createSession, response => (SessionState.ofNumber response.state).fault?
  | .getSession, response =>
    response.session.elim (some .incomplete) fun session => (Session.ofWire session).fault?
  | .getSessions, response => (response.sessions.mapM SessionSummary.ofWire).fault?
  | .getHooks, response => (response.hooks.mapM Hook.ofWire).fault?
  | _, _ => none

/-- What is wrong with the answer to a call. -/
def Turn.fault? : Turn → Option Fault
  | ⟨_, .error _⟩ => some .incomplete
  | ⟨⟨m, _⟩, .ok response⟩ => if m.isPositive response then m.defect? response else some .refusal

theorem Turn.isPositive_of_fault? {turn : Turn} (h : turn.fault? = none) :
    turn.isPositive = true := by
  obtain ⟨⟨m, request⟩, e | response⟩ := turn
  · cases h
  · change m.isPositive response = true
    rw [fault?] at h
    split at h
    · assumption
    · cases h

/-- Of the requests of a start, a response is only ever a refusal. -/
theorem StartPlan.Step.Requests.fault? {step : StartPlan.Step} {sessionId : Int32} {c : Call}
    (h : step.Requests sessionId c) (response : c.method.Response) :
    Turn.fault? ⟨c, .ok response⟩ =
      if c.method.isPositive response then none else some .refusal := by
  cases h <;> rfl

/-- The topology in a file that is read with that answer. -/
def loaded (path : String) : Except FileError Bytes → Except Fault Topology
  | .error _ => .error .file
  | .ok bytes =>
    match bytes.toText? with
    | none => .error .file
    | some text => (Topology.ofText (.ofPath path) text).mapError fun _ => .badTopology

namespace CommandLine

/-- A step of a command. -/
inductive Step where
  /-- Reads a topology from a file. -/
  | load (path : String)
  | read (path : String)
  | ask (c : Call)
  /-- Asks for something in a session that the daemon has named. -/
  | askWithin (request : Int32 → Call)
  /-- Sends a document. -/
  | upload
  | build (step : StartPlan.Step)
  | write (path : String)

namespace Step

/-- The deed takes the step, whatever comes of it. -/
inductive Takes : Step → Deed → Prop
  | load (path : String) (answer : Except FileError Bytes) : Takes (.load path) (.read path answer)
  | read (path : String) (answer : Except FileError Bytes) : Takes (.read path) (.read path answer)
  | ask {c : Call} {turn : Turn} : turn.call = c → Takes (.ask c) (.call turn)
  | askWithin {request : Int32 → Call} {turn : Turn} (sessionId : Int32) :
      turn.call = request sessionId → Takes (.askWithin request) (.call turn)
  | upload {turn : Turn} (data : Bytes) : turn.call = ⟨.openXml, { data }⟩ →
      Takes .upload (.call turn)
  | build {step : StartPlan.Step} {turn : Turn} (sessionId : Int32) :
      step.Requests sessionId turn.call → Takes (.build step) (.call turn)
  | write (path : String) (contents : Bytes) (answer : Except FileError Unit) :
      Takes (.write path) (.write path contents answer)

/-- Why the step fails when it is taken by that deed. -/
def fault? : Step → Deed → Option Fault
  | _, .call turn => turn.fault?
  | .load path, .read _ answer =>
    match loaded path answer with
    | .ok _ => none
    | .error f => some f
  | _, .read _ answer => if answer.isOk then none else some .file
  | _, .write _ _ answer => if answer.isOk then none else some .file

/-- Why the step cannot be taken. -/
def obstacle? : Step → Option Fault
  | build (.addLink link) => link.badMask?.map fun _ => .unmappable
  | _ => none

end Step

/-- Carrying out steps: the deeds, and the fault that ends them, if there is one. -/
inductive Performs : List Step → List Deed → Option Fault → Prop
  | done : Performs [] [] none
  | blocked {step : Step} {rest : List Step} {f : Fault} : step.obstacle? = some f →
      Performs (step :: rest) [] (some f)
  | failed {step : Step} {rest : List Step} {deed : Deed} {f : Fault} : step.Takes deed →
      step.fault? deed = some f → Performs (step :: rest) [deed] (some f)
  | taken {step : Step} {rest : List Step} {deed : Deed} {deeds : List Deed} {o : Option Fault} :
      step.Takes deed → step.fault? deed = none → Performs rest deeds o →
      Performs (step :: rest) (deed :: deeds) o

namespace Performs

variable {first rest steps : List Step} {deeds deeds' : List Deed} {o : Option Fault}

theorem append (h : Performs first deeds none) (h' : Performs rest deeds' o) :
    Performs (first ++ rest) (deeds ++ deeds') o := by
  generalize hnone : none = o₁ at h
  induction h with
  | done => exact h'
  | blocked _ => cases hnone
  | failed _ _ => cases hnone
  | taken htakes hgood _ ih => exact .taken htakes hgood (ih hnone)

theorem stop {f : Fault} (h : Performs first deeds (some f)) :
    Performs (first ++ rest) deeds (some f) := by
  generalize hsome : some f = o₁ at h
  induction h with
  | done => cases hsome
  | blocked ho => exact .blocked ho
  | failed htakes hbad => exact .failed htakes hbad
  | taken htakes hgood _ ih => exact .taken htakes hgood (ih hsome)

theorem of_nil (h : Performs [] deeds o) : deeds = [] ∧ o = none := by
  cases h
  exact ⟨rfl, rfl⟩

/-- A first step that nothing is in the way of is taken, and nothing follows when it fails. -/
theorem takes_first {step : Step} (h : Performs (step :: rest) deeds o)
    (hfree : step.obstacle? = none) :
    ∃ deed later, deeds = deed :: later ∧ step.Takes deed ∧
      ∀ f, step.fault? deed = some f → later = [] := by
  cases h with
  | blocked ho => cases hfree.symm.trans ho
  | failed htakes _ => exact ⟨_, [], rfl, htakes, fun _ _ => rfl⟩
  | taken htakes hgood _ =>
    refine ⟨_, _, rfl, htakes, fun f hbad => ?_⟩
    cases hgood.symm.trans hbad

/-- The step that fails is the last one, and it is the one that counts. -/
theorem of_fault? (h : Performs steps deeds o) {n : Nat} {step : Step} {deed : Deed} {f : Fault}
    (hstep : steps[n]? = some step) (hdeed : deeds[n]? = some deed)
    (hfault : step.fault? deed = some f) : deeds.length = n + 1 ∧ o = some f := by
  induction h generalizing n with
  | done => cases hdeed
  | blocked _ => cases hdeed
  | failed _ hbad =>
    cases n with
    | zero =>
      cases hstep
      cases hdeed
      exact ⟨rfl, hbad.symm.trans hfault⟩
    | succ n => cases hdeed
  | taken _ hgood _ ih =>
    cases n with
    | zero =>
      cases hstep
      cases hdeed
      cases hgood.symm.trans hfault
    | succ n =>
      obtain ⟨hlength, ho⟩ := ih hstep hdeed
      exact ⟨congrArg (· + 1) hlength, ho⟩

theorem isPositive (h : Performs steps deeds o) (ho : o = none) :
    ∀ turn ∈ deeds.filterMap Deed.turn?, turn.isPositive = true := by
  induction h with
  | done => simp
  | blocked _ => cases ho
  | failed _ _ => cases ho
  | @taken step rest deed deeds o _ hgood _ ih =>
    intro turn hmem
    obtain ⟨deed', hmem, hturn⟩ := List.mem_filterMap.mp hmem
    rcases List.mem_cons.mp hmem with rfl | hmem
    · cases deed' with
      | call turn' =>
        cases hturn
        exact Turn.isPositive_of_fault? hgood
      | read _ _ => cases hturn
      | write _ _ _ => cases hturn
    · exact ih ho turn (List.mem_filterMap.mpr ⟨deed', hmem, hturn⟩)

end Performs

/-- The end of a workflow shows the fault: there is an error exactly when there is a fault, and both
give the same exit status. -/
inductive Shows {α : Type} : Except WorkflowError α → Option Fault → Prop
  | success (a : α) : Shows (.ok a) none
  | failure {e : WorkflowError} {f : Fault} : e.exitCode = f.status → Shows (.error e) (some f)

/-- In every world, the workflow carries out the steps. -/
def Enacts {α : Type} (op : WorkflowM α) (steps : List Step) : Prop :=
  ∀ (σ : Type) (world : World σ) (s : σ),
    ∃ o, Performs steps (op.run.deeds world s) o ∧ Shows (op.run.run world s).1 o

section Enacts

variable {α β : Type}

theorem enacts_pure (a : α) : Enacts (pure a) [] :=
  fun _ _ _ => ⟨none, .done, .success a⟩

theorem enacts_say (line : String) : Enacts (say line) [] :=
  fun _ _ _ => ⟨none, .done, .success ()⟩

theorem enacts_log (level : Log.Level) (component : Log.Component) (message : String) :
    Enacts (ExceptT.lift (Program.log level component message)) [] :=
  fun _ _ _ => ⟨none, .done, .success ()⟩

theorem enacts_warn (message : String) : Enacts (ExceptT.lift (warn message)) [] :=
  fun _ _ _ => ⟨none, .done, .success ()⟩

theorem Enacts.bind {op : WorkflowM α} {k : α → WorkflowM β} {first rest : List Step}
    (hop : Enacts op first) (hk : ∀ a, Enacts (k a) rest) : Enacts (op >>= k) (first ++ rest) := by
  intro σ world s
  obtain ⟨o, hfirst, hend⟩ := hop σ world s
  rcases Program.except_bind_run world op k s with
    ⟨e, s', hrun, hall, hdeeds⟩ | ⟨a, s', hrun, hall, hdeeds⟩
  · rw [hrun] at hend
    rw [hall, hdeeds]
    cases hend with
    | failure hcode => exact ⟨_, hfirst.stop, .failure hcode⟩
  · rw [hrun] at hend
    cases hend with
    | success _ =>
      obtain ⟨o', hrest, hend'⟩ := hk a σ world s'
      rw [hall, hdeeds]
      exact ⟨o', hfirst.append hrest, hend'⟩

/-- What the workflow tells the user comes after its last step. -/
theorem Enacts.andTell {op : WorkflowM α} {k : α → WorkflowM β} {steps : List Step}
    (hop : Enacts op steps) (hk : ∀ a, Enacts (k a) []) : Enacts (op >>= k) steps := by
  have h := hop.bind hk
  rwa [List.append_nil] at h

/-- A workflow that leaves files alone and makes one call. -/
theorem enacts_of_turn {op : WorkflowM α} {step : Step} (hop : Program.LeavesFiles op)
    (hturn : ∀ t x, op.run.Yields t x → ∃ turn, t = [turn] ∧ step.Takes (.call turn) ∧
      Shows x turn.fault?) : Enacts op [step] := by
  intro σ world s
  obtain ⟨turn, htrace, htakes, hend⟩ := hturn _ _ (op.run.yields_run world s)
  refine ⟨turn.fault?, ?_, hend⟩
  rw [Program.deeds_of_fileless world hop, htrace]
  cases hfault : turn.fault? with
  | none => exact .taken htakes hfault .done
  | some f => exact .failed htakes hfault

theorem leavesFiles_ofClient {op : ClientM α} (h : Program.LeavesFiles op) :
    Program.LeavesFiles (ofClient op) := by
  refine Program.fileless_bind h fun y => ?_
  cases y <;> trivial

theorem shows_ofApi (e : ApiError) :
    Shows (.error (.client (.ofApi e)) : Except WorkflowError α) (some .incomplete) := by
  cases e <;> exact .failure rfl

/-- What follows the mapping of a value only logs. -/
theorem shows_mapped {m : Mapped α} {k : α → ClientM β}
    (hk : ∀ a u y, (k a).run.Yields u y → u = [] ∧ ∃ b, y = .ok b) {u : List Turn}
    {y : Except ConnectError β} (h : (Client.mapped m >>= k).run.Yields u y) :
    u = [] ∧ Shows (y.mapError .client) m.fault? := by
  cases m with
  | error e =>
    obtain ⟨rfl, rfl⟩ := h
    exact ⟨rfl, .failure rfl⟩
  | ok a =>
    obtain ⟨rfl, b, rfl⟩ := hk a u y h
    exact ⟨rfl, .success b⟩

/-- One request, whose response is taken up without another call. -/
theorem enacts_request {m : Method} {r : m.Request} {k : m.Response → ClientM α} {step : Step}
    (hstep : ∀ answer, step.Takes (.call ⟨⟨m, r⟩, answer⟩))
    (hfiles : ∀ response, Program.LeavesFiles (k response))
    (hk : ∀ response u y, (k response).run.Yields u y →
      u = [] ∧ Shows (y.mapError .client) (Turn.fault? ⟨⟨m, r⟩, .ok response⟩)) :
    Enacts (ofClient (Client.request m r >>= k)) [step] := by
  refine enacts_of_turn (leavesFiles_ofClient (Client.leavesFiles_request_bind r hfiles)) ?_
  intro t x h
  obtain ⟨y, hy, rfl⟩ := ofClient_yields.mp h
  rcases Client.request_bind_yields.mp hy with ⟨e, rfl, rfl⟩ | ⟨response, u, hu, rfl⟩
  · exact ⟨_, rfl, hstep _, shows_ofApi e⟩
  · obtain ⟨rfl, hend⟩ := hk response u y hu
    exact ⟨_, rfl, hstep _, hend⟩

theorem yields_pure_ok {a : α} {u : List Turn} {y : Except ConnectError α}
    (h : (pure a : ClientM α).run.Yields u y) : u = [] ∧ ∃ b, y = .ok b :=
  ⟨h.1, a, h.2⟩

theorem yields_note_ok {level : Log.Level} {message : String} {a : α} {u : List Turn}
    {y : Except ConnectError α}
    (h : (Client.note level message >>= fun _ => pure a : ClientM α).run.Yields u y) :
    u = [] ∧ ∃ b, y = .ok b :=
  yields_pure_ok (Client.note_bind_yields.mp h)

theorem enacts_listSessions : Enacts (ofClient Client.listSessions) [.ask ⟨.getSessions, {}⟩] := by
  refine enacts_request (fun _ => .ask rfl) (by simp) fun response u y hu => ?_
  have hu := Client.note_bind_yields.mp hu
  rw [← bind_pure (Client.mapped _)] at hu
  exact shows_mapped (fun _ _ _ => yields_pure_ok) hu

theorem enacts_createSession :
    Enacts (ofClient Client.createSession) [.ask ⟨.createSession, { sessionId := none }⟩] := by
  refine enacts_request (fun _ => .ask rfl) (by simp) fun response u y hu => ?_
  exact shows_mapped (fun _ _ _ => yields_note_ok) hu

theorem enacts_getSession (sessionId : Int32) :
    Enacts (ofClient (Client.getSession sessionId)) [.ask ⟨.getSession, { sessionId }⟩] := by
  refine enacts_request (fun _ => .ask rfl) (fun response => ?_) fun response u y hu => ?_
  · split <;> simp
  · obtain ⟨session⟩ := response
    cases session with
    | none =>
      obtain ⟨rfl, rfl⟩ := hu
      exact ⟨rfl, shows_ofApi _⟩
    | some wire => exact shows_mapped (fun _ _ _ => yields_note_ok) hu

theorem enacts_attach (sessionId : Int32) :
    Enacts (attach sessionId) [.ask ⟨.getSession, { sessionId }⟩] :=
  (enacts_getSession sessionId).andTell fun _ => enacts_pure _

theorem enacts_getHooks (ctx : SessionContext) : Enacts (ofClient (Client.getHooks ctx))
    [.askWithin fun sessionId => ⟨.getHooks, { sessionId }⟩] := by
  refine enacts_request (fun _ => .askWithin _ rfl) (by simp) fun response u y hu => ?_
  rw [← bind_pure (Client.mapped _)] at hu
  exact shows_mapped (fun _ _ _ => yields_pure_ok) hu

/-- A request whose response is taken as it is. -/
theorem enacts_inquiry {m : Method} {r : m.Request} {k : m.Response → ClientM α} {step : Step}
    (hstep : ∀ answer, step.Takes (.call ⟨⟨m, r⟩, answer⟩))
    (hfiles : ∀ response, Program.LeavesFiles (k response))
    (hk : ∀ response u y, (k response).run.Yields u y → u = [] ∧ ∃ a, y = .ok a)
    (hplain : ∀ response, Turn.fault? ⟨⟨m, r⟩, .ok response⟩ = none) :
    Enacts (ofClient (Client.request m r >>= k)) [step] := by
  refine enacts_request hstep hfiles fun response u y hu => ?_
  obtain ⟨rfl, a, rfl⟩ := hk response u y hu
  rw [hplain]
  exact ⟨rfl, .success a⟩

theorem enacts_getSessionOptions (ctx : SessionContext) :
    Enacts (ofClient (Client.getSessionOptions ctx))
      [.askWithin fun sessionId => ⟨.getSessionOptions, { sessionId }⟩] :=
  enacts_inquiry (fun _ => .askWithin _ rfl) (by simp) (fun _ _ _ => yields_pure_ok) fun _ => rfl

theorem enacts_getLocation (ctx : SessionContext) :
    Enacts (ofClient (Client.getLocation ctx))
      [.askWithin fun sessionId => ⟨.getSessionLocation, { sessionId }⟩] :=
  enacts_inquiry (fun _ => .askWithin _ rfl) (by simp) (fun _ _ _ => yields_pure_ok) fun _ => rfl

theorem enacts_getServices : Enacts (ofClient Client.getServices) [.ask ⟨.getServices, {}⟩] :=
  enacts_inquiry (fun _ => .ask rfl) (by simp) (fun _ _ _ => yields_pure_ok) fun _ => rfl

theorem enacts_saveXml (ctx : SessionContext) : Enacts (ofClient (Client.saveXml ctx))
    [.askWithin fun sessionId => ⟨.saveXml, { sessionId }⟩] :=
  enacts_inquiry (fun _ => .askWithin _ rfl) (by simp) (fun _ _ _ => yields_note_ok) fun _ => rfl

/-- A request whose answer is an acknowledgment, and an error for a refusal. -/
theorem enacts_verdict {m : Method} {r : m.Request} {k : m.Response → ClientM α}
    {k' : α → WorkflowM β} {step : Step} (value : m.Response → α)
    (hstep : ∀ answer, step.Takes (.call ⟨⟨m, r⟩, answer⟩))
    (hfiles : ∀ response, Program.LeavesFiles (k response))
    (hfiles' : ∀ a, Program.LeavesFiles (k' a))
    (hk : ∀ response u y, (k response).run.Yields u y → u = [] ∧ y = .ok (value response))
    (hk' : ∀ response u x, (k' (value response)).run.Yields u x →
      u = [] ∧ Shows x (Turn.fault? ⟨⟨m, r⟩, .ok response⟩)) :
    Enacts (ofClient (Client.request m r >>= k) >>= k') [step] := by
  refine enacts_of_turn (Program.leavesFiles_bind
    (leavesFiles_ofClient (Client.leavesFiles_request_bind r hfiles)) hfiles') ?_
  intro t x h
  rcases Program.yields_except_bind.mp h with ⟨e, h₁, rfl⟩ | ⟨t₁, a, t₂, h₁, h₂, rfl⟩
  · obtain ⟨y, hy, he⟩ := ofClient_yields.mp h₁
    rcases Client.request_bind_yields.mp hy with ⟨e', rfl, rfl⟩ | ⟨response, u, hu, rfl⟩
    · cases he
      exact ⟨_, rfl, hstep _, shows_ofApi e'⟩
    · obtain ⟨_, rfl⟩ := hk response u y hu
      cases he
  · obtain ⟨y, hy, ha⟩ := ofClient_yields.mp h₁
    rcases Client.request_bind_yields.mp hy with ⟨e', rfl, rfl⟩ | ⟨response, u, hu, rfl⟩
    · cases ha
    · obtain ⟨rfl, rfl⟩ := hk response u y hu
      cases ha
      obtain ⟨rfl, hend⟩ := hk' response t₂ x h₂
      exact ⟨_, rfl, hstep _, hend⟩

theorem enacts_delete (sessionId : Int32) :
    Enacts (delete sessionId) [.ask ⟨.deleteSession, { sessionId }⟩] := by
  refine enacts_verdict Acknowledgment.result (fun _ => .ask rfl) (fun response => ?_) (by simp)
    (fun response u y hu => ?_) fun response u x hx => ?_
  · rcases response with ⟨_ | _⟩ <;> simp
  · rcases response with ⟨_ | _⟩ <;> exact Client.note_bind_yields.mp hu
  · rcases response with ⟨_ | _⟩
    · obtain ⟨rfl, rfl⟩ := hx
      exact ⟨rfl, .failure rfl⟩
    · obtain ⟨rfl, rfl⟩ := hx
      exact ⟨rfl, .success _⟩

theorem enacts_upload (data : Bytes) (refusal : String) :
    Enacts (do
      match ← ofClient (Client.openXml data) with
      | some id => return id
      | none => throw (.rejected refusal)) [.upload] := by
  refine enacts_verdict (fun response => if response.result then some response.sessionId else none)
    (fun _ => .upload data rfl) (fun response => ?_) (fun a => ?_) (fun response u y hu => ?_)
    fun response u x hx => ?_
  · rcases response with ⟨_ | _, _⟩ <;> simp
  · cases a <;> simp
  · rcases response with ⟨_ | _, _⟩ <;> exact Client.note_bind_yields.mp hu
  · rcases response with ⟨_ | _, _⟩
    · obtain ⟨rfl, rfl⟩ := hx
      exact ⟨rfl, .failure rfl⟩
    · obtain ⟨rfl, rfl⟩ := hx
      exact ⟨rfl, .success _⟩

/-! Files -/

theorem readFile_in {σ : Type} (world : World σ) (name : String) (s : σ) :
    (readFile name).run.deeds world s = [.read name (world (.readFile name) s).1] ∧
      (readFile name).run.run world s =
        ((world (.readFile name) s).1.mapError .file, (world (.readFile name) s).2) := by
  refine ⟨?_, readFile_run world name s⟩
  simp only [readFile, Program.perform, ExceptT.run_mk, Program.deeds_bind, Program.deeds,
    Program.run]
  rcases world (.readFile name) s with ⟨_ | _, s'⟩
  · rfl
  · rfl

theorem enacts_readFile (name : String) : Enacts (readFile name) [.read name] := by
  intro σ world s
  obtain ⟨hdeeds, hrun⟩ := readFile_in world name s
  rw [hdeeds, hrun]
  rcases (world (.readFile name) s).1 with e | bytes
  · exact ⟨_, .failed (.read _ _) rfl, .failure rfl⟩
  · exact ⟨_, .taken (.read _ _) rfl .done, .success bytes⟩

theorem enacts_writeFile (name : String) (contents : Bytes) :
    Enacts (writeFile name contents) [.write name] := by
  intro σ world s
  simp only [writeFile, Program.perform, ExceptT.run_mk, Program.deeds_bind, Program.run_bind,
    Program.deeds, Program.run]
  rcases world (.writeFile name contents) s with ⟨e | done, s'⟩
  · exact ⟨_, .failed (.write _ _ _) rfl, .failure rfl⟩
  · exact ⟨_, .taken (.write _ _ _) rfl .done, .success ()⟩

theorem load_in {σ : Type} (world : World σ) (path : String) (s : σ) :
    ∃ answer s', (Topology.load path).run.deeds world s = [.read path answer] ∧
      ((∃ t, loaded path answer = .ok t ∧ (Topology.load path).run.run world s = (.ok t, s')) ∨
        ∃ f e, loaded path answer = .error f ∧
          (Topology.load path).run.run world s = (.error e, s') ∧ e.exitCode = f.status) := by
  obtain ⟨hdeeds, hrun⟩ := readFile_in world path s
  refine ⟨(world (.readFile path) s).1, (world (.readFile path) s).2, ?_⟩
  simp only [Topology.load, readTextFile, ExceptT.run_bind, Program.deeds_bind, Program.run_bind,
    hdeeds, hrun]
  rcases (world (.readFile path) s).1 with e | bytes
  · exact ⟨rfl, .inr ⟨_, _, rfl, rfl, rfl⟩⟩
  · simp only [loaded, Except.mapError]
    cases bytes.toText? with
    | none => exact ⟨rfl, .inr ⟨_, _, rfl, rfl, rfl⟩⟩
    | some text =>
      simp only [ExceptT.run_pure, Program.run_pure, Program.deeds_pure]
      cases Topology.ofText (.ofPath path) text with
      | error reason => exact ⟨rfl, .inr ⟨_, _, rfl, rfl, rfl⟩⟩
      | ok t => exact ⟨rfl, .inl ⟨t, rfl, rfl⟩⟩

/-! Within a session -/

/-- The fault that the result of an operation in a session stands for. -/
def outcome : Except ConnectError Bool → Option Fault
  | .ok true => none
  | .ok false => some .refusal
  | .error e => some (if e.isTransportFault then .incomplete else .unmappable)

/-- No step is blocked for the lack of an id. -/
def Identified (steps : List StartPlan.Step) : Prop :=
  ∀ step ∈ steps, step.obstacle? = none ∨ ∃ link, step = .addLink link

theorem performs_of_executes {ctx ctx' : SessionContext} {steps : List StartPlan.Step}
    {t : List Turn} {r : Except ConnectError Bool} (h : StartPlan.Executes ctx steps t r ctx')
    (hsteps : Identified steps) : Performs (steps.map .build) (t.map .call) (outcome r) := by
  induction h with
  | done ctx => exact .done
  | @blocked ctx step rest e ho =>
    -- only the mask of a link can be in the way
    rcases hsteps step List.mem_cons_self with hnone | ⟨link, rfl⟩
    · cases hnone.symm.trans ho
    · rw [StartPlan.Step.addLink_obstacle?, Option.map_eq_some_iff] at ho
      obtain ⟨mask, hmask, rfl⟩ := ho
      exact .blocked (by simp [Step.obstacle?, hmask, ConnectError.isTransportFault])
  | failed e hc =>
    refine .failed (.build _ hc) ?_
    cases e <;> rfl
  | refused hc hp => exact .failed (.build _ hc) (by simp [Step.fault?, hc.fault?, hp])
  | accepted hc hp _ ih =>
    refine .taken (.build _ hc) (by simp [Step.fault?, hc.fault?, hp]) (ih fun step hmem => ?_)
    exact hsteps step (List.mem_cons_of_mem _ hmem)

theorem onContext_in {σ : Type} (world : World σ) (ctx : SessionContext) (op : SessionM α) (s : σ) :
    (onContext ctx op).run.deeds world s = (op.run.run ctx).deeds world s ∧
      ((onContext ctx op).run.run world s).1 =
        (((op.run.run ctx).run world s).1.1.mapError .client).map
          fun a => (a, ((op.run.run ctx).run world s).1.2) := by
  change ((op.run.run ctx) >>= fun y => _).deeds world s = _ ∧
    (((op.run.run ctx) >>= fun y => _).run world s).1 = _
  rw [Program.deeds_bind, Program.run_bind]
  rcases (op.run.run ctx).run world s with ⟨⟨e | a, ctx'⟩, s'⟩
  · exact ⟨List.append_nil _, rfl⟩
  · exact ⟨List.append_nil _, rfl⟩

/-- An operation that follows steps, and an error for a refusal. -/
theorem enacts_onContext {op : SessionM Bool} {steps : List StartPlan.Step}
    (hop : StartPlan.Follows op steps) (hfiles : op.Fileless) (hsteps : Identified steps)
    {k : Bool × SessionContext → WorkflowM α} (htrue : ∀ ctx, Enacts (k (true, ctx)) [])
    (hfalse : ∀ ctx, ∃ refusal, k (false, ctx) = throw (.rejected refusal)) (ctx : SessionContext) :
    Enacts (onContext ctx op >>= k) (steps.map .build) := by
  intro σ world s
  obtain ⟨hdeeds, hresult⟩ := onContext_in world ctx op s
  rw [Program.deeds_of_fileless world (hfiles ctx)] at hdeeds
  have hyields := (op.run.run ctx).yields_run world s
  rcases hend : ((op.run.run ctx).run world s).1 with ⟨r, ctx'⟩
  rw [hend] at hresult hyields
  have hperforms := performs_of_executes (hop ctx _ r ctx' hyields) hsteps
  rw [← hdeeds] at hperforms
  rcases Program.except_bind_run world (onContext ctx op) k s with
    ⟨e, s', hrun, hall, hsame⟩ | ⟨a, s', hrun, hall, hsame⟩
  · rw [hall, hsame]
    rw [hrun] at hresult
    cases r with
    | ok _ => cases hresult
    | error e' =>
      cases hresult
      refine ⟨_, hperforms, .failure ?_⟩
      simp only [WorkflowError.exitCode]
      split <;> rfl
  · rw [hall, hsame]
    rw [hrun] at hresult
    cases r with
    | error _ => cases hresult
    | ok accepted =>
      cases hresult
      cases accepted with
      | true =>
        obtain ⟨o, hrest, hend'⟩ := htrue ctx' σ world s'
        have hboth := hperforms.append hrest
        rw [List.append_nil] at hboth
        exact ⟨o, hboth, hend'⟩
      | false =>
        -- the operation ends well for the client; it is the workflow that makes an error of it
        obtain ⟨refusal, hk⟩ := hfalse ctx'
        rw [hk]
        refine ⟨some .refusal, ?_, .failure rfl⟩
        have hnone : (throw (.rejected refusal) : WorkflowM α).run.deeds world s' = [] := rfl
        rw [hnone, List.append_nil]
        exact hperforms

theorem identified_enter (state : SessionState) : Identified [.enter state] := by
  intro step hmem
  rw [List.mem_singleton.mp hmem]
  exact .inl rfl

theorem identified_plan {t : Topology} (h : t.offence? = none) :
    Identified (StartPlan.plan t.nodes t.links t.hooks) := by
  have hnodes := List.findSome?_eq_none_iff.mp (t.nodes_unobstructed h)
  intro step hmem
  simp only [StartPlan.plan, List.mem_append, List.mem_map, List.mem_cons, List.not_mem_nil,
    or_false] at hmem
  rcases hmem with ((((rfl | rfl) | ⟨hook, _, rfl⟩) | hnode) | ⟨link, _, rfl⟩) | rfl
  · exact .inl rfl
  · exact .inl rfl
  · exact .inl rfl
  · exact .inl (hnodes step hnode)
  · exact .inr ⟨link, rfl⟩
  · exact .inl rfl

theorem enacts_setState (sessionId : Int32) (state : SessionState) :
    Enacts (Workflow.setState sessionId state)
      [.ask ⟨.getSession, { sessionId }⟩, .build (.enter state)] := by
  refine (enacts_attach sessionId).bind fun ctx => ?_
  refine enacts_onContext (StartPlan.setState_follows state) (Client.fileless_setState state)
    (identified_enter state) (fun _ => ?_) (fun _ => ⟨_, rfl⟩) ctx
  exact enacts_pure _

theorem enacts_stop (sessionId : Int32) : Enacts (Workflow.stop sessionId)
    [.ask ⟨.getSession, { sessionId }⟩, .build (.enter .shutdown)] := by
  refine (enacts_attach sessionId).bind fun ctx => ?_
  refine enacts_onContext (StartPlan.setState_follows .shutdown).afterReport Client.fileless_stop
    (identified_enter .shutdown) (fun _ => ?_) (fun _ => ⟨_, rfl⟩) ctx
  exact enacts_pure _

theorem enacts_start (sessionId : Option Int32) {t : Topology} (h : t.offence? = none) :
    Enacts (Workflow.start sessionId t) (.ask (opening sessionId) ::
      (StartPlan.plan t.nodes t.links t.hooks).map .build) := by
  cases sessionId
  case' none => refine enacts_createSession.bind fun ctx => ?_
  case' some id => refine (enacts_attach id).bind fun ctx => ?_
  all_goals
    refine enacts_onContext (StartPlan.start_follows _ _ _) (Client.fileless_start _ _ _)
      (identified_plan h) (fun _ => ?_) (fun _ => ⟨_, rfl⟩) ctx
    exact (enacts_log _ _ _).andTell fun _ => enacts_pure _

end Enacts

end CommandLine

end EmuControl
