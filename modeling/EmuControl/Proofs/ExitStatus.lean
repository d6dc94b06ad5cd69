import EmuControl.Proofs.Enactment
import EmuControl.Proofs.TopologyValidation

/-!
# The exit status of a command

A command that talks to the daemon has a plan, which is fixed but for one thing: a start goes on
with what its topology file says. Every run of the command carries out the plan up to the first
fault, and this fault decides the exit status.
-/
namespace EmuControl.CommandLine

open Wire Workflow

/-- The steps of a command. Those of a start come from the topology that it reads. -/
def Command.plan (t : Topology) : Command → List Step
  | listSessions => [.ask ⟨.getSessions, {}⟩]
  | createSession => [.ask ⟨.createSession, { sessionId := none }⟩]
  | deleteSession sessionId => [.ask ⟨.deleteSession, { sessionId }⟩]
  | showSession sessionId _ => [.ask ⟨.getSession, { sessionId }⟩]
  | startSession path session =>
    .load path :: .ask (opening session) :: (StartPlan.plan t.nodes t.links t.hooks).map .build
  | stopSession sessionId => [.ask ⟨.getSession, { sessionId }⟩, .build (.enter .shutdown)]
  | setState sessionId state => [.ask ⟨.getSession, { sessionId }⟩, .build (.enter state)]
  | listHooks sessionId =>
    [.ask ⟨.getSession, { sessionId }⟩, .askWithin fun sessionId => ⟨.getHooks, { sessionId }⟩]
  | showOptions sessionId =>
    [.ask ⟨.getSession, { sessionId }⟩,
      .askWithin fun sessionId => ⟨.getSessionOptions, { sessionId }⟩]
  | listServices => [.ask ⟨.getServices, {}⟩]
  | showLocation sessionId =>
    [.ask ⟨.getSession, { sessionId }⟩,
      .askWithin fun sessionId => ⟨.getSessionLocation, { sessionId }⟩]
  | saveSession sessionId file =>
    [.ask ⟨.getSession, { sessionId }⟩, .askWithin fun sessionId => ⟨.saveXml, { sessionId }⟩,
      .write file]
  | openSession file => [.read file, .upload]
  | updateService _ | completions _ => []

/-- The topology that the command has read, if it reads one. -/
def Command.topology : Command → List Deed → Topology
  | startSession path _, .read _ answer :: _ => (loaded path answer).toOption.getD {}
  | _, _ => {}

theorem offence?_of_loaded {path : String} {answer : Except FileError Bytes} {t : Topology}
    (h : loaded path answer = .ok t) : t.offence? = none := by
  unfold loaded at h
  split at h
  · cases h
  · split at h
    · cases h
    · rename_i text _
      cases htext : Topology.ofText (.ofPath path) text with
      | error e =>
        rw [htext] at h
        cases h
      | ok topology =>
        rw [htext] at h
        cases h
        exact Topology.offence?_of_ofText htext

theorem enacts_saySession (session : Session) : Enacts (saySession session) [] := by
  refine (enacts_say _).andTell fun _ => (enacts_say _).andTell fun _ => ?_
  split
  · exact enacts_say _
  · exact enacts_pure _

/-- In every world, the workflow carries out the plan of the command. -/
def Command.EnactedBy (c : Command) (op : WorkflowM Unit) : Prop :=
  ∀ (σ : Type) (world : World σ) (s : σ),
    ∃ o, Performs (c.plan (c.topology (op.run.deeds world s))) (op.run.deeds world s) o ∧
      Shows (op.run.run world s).1 o

theorem load_bind_enacted {path : String} {session : Option Int32} {k : Topology → WorkflowM Unit}
    (hk : ∀ t, t.offence? = none → Enacts (k t)
      (.ask (opening session) :: (StartPlan.plan t.nodes t.links t.hooks).map .build)) :
    (Command.startSession path session).EnactedBy (Topology.load path >>= k) := by
  intro σ world s
  obtain ⟨answer, s', hdeeds, hload⟩ := load_in world path s
  rcases Program.except_bind_run world (Topology.load path) k s with
    ⟨e, s'', hrun, hall, hsame⟩ | ⟨t, s'', hrun, hall, hsame⟩
  · rw [hall, hsame, hdeeds]
    rcases hload with ⟨t, _, hok⟩ | ⟨f, e', hbad, herror, hcode⟩
    · cases hok.symm.trans hrun
    · cases herror.symm.trans hrun
      exact ⟨some f, .failed (.load path answer) (by simp [Step.fault?, hbad]), .failure hcode⟩
  · rw [hall, hsame, hdeeds]
    rcases hload with ⟨t', hgood, hok⟩ | ⟨f, e', _, herror, _⟩
    · cases hok.symm.trans hrun
      -- the plan is read off the same answer that the workflow goes on with
      have htopology : ∀ rest, Command.topology (.startSession path session)
          (.read path answer :: rest) = t := by
        simp [Command.topology, hgood, Except.toOption]
      obtain ⟨o, hbuild, hend⟩ := hk t (offence?_of_loaded hgood) σ world s'
      refine ⟨o, ?_, hend⟩
      rw [List.singleton_append, htopology]
      exact .taken (.load path answer) (by simp [Step.fault?, hgood]) hbuild
    · cases herror.symm.trans hrun

theorem startSession_enacted (path : String) (session : Option Int32) :
    (Command.startSession path session).EnactedBy (startTopology path session) := by
  refine load_bind_enacted fun t ht => ?_
  have hstart := enacts_start session ht
  cases t.isEmpty with
  | true => exact (enacts_warn _).bind fun _ => hstart.andTell fun _ => enacts_say _
  | false => exact hstart.andTell fun _ => enacts_say _

theorem Command.enacted {c : Command} (h : c.needsDaemon = true) : c.EnactedBy c.steps := by
  -- the plan of a command that reads no topology is the same for all of them
  have hfixed : ∀ {steps}, (∀ t, c.plan t = steps) → Enacts c.steps steps →
      c.EnactedBy c.steps := by
    intro steps hplan henacts σ world s
    rw [hplan]
    exact henacts σ world s
  cases c with
  | listSessions =>
    refine hfixed (fun _ => rfl) (enacts_listSessions.andTell fun sessions => ?_)
    split <;> exact enacts_say _
  | createSession =>
    exact hfixed (fun _ => rfl) (enacts_createSession.andTell fun _ => enacts_say _)
  | deleteSession session =>
    exact hfixed (fun _ => rfl) ((enacts_delete session).andTell fun _ => enacts_say _)
  | showSession session asJson =>
    refine hfixed (fun _ => rfl) ((enacts_getSession session).andTell fun snapshot => ?_)
    split
    · exact enacts_say _
    · exact enacts_saySession snapshot
  | startSession path session => exact startSession_enacted path session
  | stopSession session =>
    refine hfixed (fun _ => rfl) (Enacts.andTell ?_ fun _ => enacts_say _)
    exact (enacts_stop session).andTell fun _ => enacts_pure _
  | setState session state =>
    exact hfixed (fun _ => rfl) ((enacts_setState session state).andTell fun _ => enacts_say _)
  | listHooks session =>
    refine hfixed (fun _ => rfl) ((enacts_attach session).bind fun ctx => ?_)
    exact (enacts_getHooks ctx).andTell fun _ => enacts_say _
  | showOptions session =>
    refine hfixed (fun _ => rfl) ((enacts_attach session).bind fun ctx => ?_)
    exact (enacts_getSessionOptions ctx).andTell fun _ => enacts_say _
  | listServices => exact hfixed (fun _ => rfl) (enacts_getServices.andTell fun _ => enacts_say _)
  | showLocation session =>
    refine hfixed (fun _ => rfl) ((enacts_attach session).bind fun ctx => ?_)
    exact (enacts_getLocation ctx).andTell fun _ => enacts_say _
  | saveSession session file =>
    refine hfixed (fun _ => rfl) (Enacts.andTell ?_ fun _ => enacts_say _)
    refine (enacts_attach session).bind fun ctx => (enacts_saveXml ctx).bind fun data => ?_
    exact (enacts_writeFile file data).andTell fun _ => enacts_pure _
  | openSession file =>
    refine hfixed (fun _ => rfl) (Enacts.andTell ?_ fun _ => enacts_say _)
    exact (enacts_readFile file).bind fun data => enacts_upload data _
  | updateService file => cases h
  | completions shell => cases h

theorem enacts_connect {e : Network.Endpoint} (h : (Network.Uri.parse? e.uri).isSome = true) :
    Enacts (ofClient e.connect) [] := by
  have hnone : (Network.Uri.parse? e.uri).isNone = false := by
    rw [← Option.not_isSome, h]
    rfl
  intro σ world s
  unfold Network.Endpoint.connect
  rw [hnone]
  exact ⟨none, .done, .success ()⟩

theorem Command.program_enacted {c : Command} {e : Network.Endpoint} (hc : c.needsDaemon = true)
    (he : (Network.Uri.parse? e.uri).isSome = true) : c.EnactedBy (c.program e) := by
  intro σ world s
  unfold Command.program
  rw [if_pos hc]
  obtain ⟨o, hnothing, hend⟩ := enacts_connect he σ world s
  obtain ⟨hdeeds, rfl⟩ := hnothing.of_nil
  rcases Program.except_bind_run world (ofClient e.connect) (fun _ => c.steps) s with
    ⟨_, s', hrun, _⟩ | ⟨_, s', _, hall, hsame⟩
  · rw [hrun] at hend
    cases hend
  · rw [hdeeds, List.nil_append] at hsame
    change ∃ o, Performs (c.plan (c.topology
      ((ofClient e.connect >>= fun _ => c.steps).run.deeds world s))) _ o ∧ _
    rw [hall, hsame]
    exact c.enacted hc σ world s'

theorem Command.execute_in {σ : Type} (world : World σ) {c : Command} {e : Network.Endpoint}
    (hc : c.needsDaemon = true) (he : (Network.Uri.parse? e.uri).isSome = true) (s : σ) :
    let deeds := (c.execute e).deeds world s
    ∃ o, Performs (c.plan (c.topology deeds)) deeds o ∧
      ((c.execute e).run world s).1 = o.elim 0 Fault.status := by
  obtain ⟨o, hperforms, hend⟩ := c.program_enacted hc he σ world s
  dsimp only
  unfold Command.execute
  rw [Program.deeds_bind, Program.run_bind]
  rcases hrun : (c.program e).run.run world s with ⟨x, s'⟩
  rw [hrun] at hend
  cases hend with
  | success _ => exact ⟨none, by rwa [Program.deeds_pure, List.append_nil], rfl⟩
  | @failure error f hcode =>
    have hnothing : (do
        Program.perform (.complain (errorReport c error))
        return error.exitCode : Program Nat).deeds world s' = [] := rfl
    refine ⟨some f, ?_, hcode⟩
    rw [hnothing, List.append_nil]
    exact hperforms

theorem runPrepared_in {σ : Type} (world : World σ) {i : Invocation} {p : Prepared}
    (hc : i.command.needsDaemon = true)
    (he : (Network.Uri.parse? p.settings.endpoint.uri).isSome = true) (s : σ) :
    let deeds := (runPrepared i p).deeds world s
    ∃ o, Performs (i.command.plan (i.command.topology deeds)) deeds o ∧
      ((runPrepared i p).run world s).1 = o.elim 0 Fault.status := by
  dsimp only
  unfold runPrepared
  -- announcing and filtering only change the world that the command runs in
  rw [(Program.filterLog_in world _ _ s).1, (Program.filterLog_in world _ _ s).2,
    (Program.announceCalls_in _ _ s).1, (Program.announceCalls_in _ _ s).2]
  exact Command.execute_in _ hc he s

/-- A start reads its file first, and says nothing to the daemon unless it finds a topology. -/
theorem Performs.silent_unless_loaded {path : String} {session : Option Int32} {t : Topology}
    {deeds : List Deed} {o : Option Fault}
    (h : Performs ((Command.startSession path session).plan t) deeds o) :
    ∃ answer, deeds.head? = some (.read path answer) ∧
      ∀ f, loaded path answer = .error f → deeds.filterMap Deed.turn? = [] := by
  obtain ⟨deed, later, rfl, htakes, hlast⟩ := h.takes_first rfl
  cases htakes with
  | load _ answer =>
    refine ⟨answer, rfl, fun f hbad => ?_⟩
    rw [hlast f (by simp [Step.fault?, hbad])]
    rfl

theorem Performs.silent_unless_read {path : String} {t : Topology} {deeds : List Deed}
    {o : Option Fault} (h : Performs ((Command.openSession path).plan t) deeds o) :
    ∃ answer, deeds.head? = some (.read path answer) ∧
      ∀ e, answer = .error e → deeds.filterMap Deed.turn? = [] := by
  obtain ⟨deed, later, rfl, htakes, hlast⟩ := h.takes_first rfl
  cases htakes with
  | read _ answer =>
    refine ⟨answer, rfl, fun e hbad => ?_⟩
    rw [hlast .file (by rw [hbad]; rfl)]
    rfl

/-- In every world, a command that talks to the daemon at a valid endpoint carries out its plan up
to the first step that fails, and exits with the status of the fault, or with 0 when no step fails.
A start that reads no valid topology and an opening of a file that cannot be read say nothing to the
daemon. No command exits with 0 after an answer that is not positive. -/
theorem exit_status_tells_fault {σ : Type} (world : World σ) (s : σ) (i : Invocation) (p : Prepared)
    (hc : i.command.needsDaemon = true)
    (he : (Network.Uri.parse? p.settings.endpoint.uri).isSome = true) :
    let program := runPrepared i p
    let deeds := program.deeds world s
    let steps := i.command.plan (i.command.topology deeds)
    let status := (program.run world s).1
    (∃ o, Performs steps deeds o ∧ status = o.elim 0 Fault.status) ∧
      (∀ n step deed f, steps[n]? = some step → deeds[n]? = some deed →
        step.fault? deed = some f → deeds.length = n + 1 ∧ status = f.status) ∧
      (∀ path session, i.command = .startSession path session →
        ∃ answer, deeds.head? = some (.read path answer) ∧
          ∀ f, loaded path answer = .error f → program.trace world s = []) ∧
      (∀ path, i.command = .openSession path →
        ∃ answer, deeds.head? = some (.read path answer) ∧
          ∀ e, answer = .error e → program.trace world s = []) ∧
      (status = 0 → ∀ turn ∈ program.trace world s, turn.isPositive = true) := by
  intro program deeds steps status
  obtain ⟨o, hperforms, hstatus⟩ :
      ∃ o, Performs (i.command.plan (i.command.topology deeds)) deeds o ∧
        status = o.elim 0 Fault.status := runPrepared_in world hc he s
  rw [program.trace_eq_filterMap world s]
  refine ⟨⟨o, hperforms, hstatus⟩, ?_, ?_, ?_, ?_⟩
  · intro n step deed f hstep hdeed hfault
    obtain ⟨hlength, rfl⟩ := hperforms.of_fault? hstep hdeed hfault
    exact ⟨hlength, hstatus⟩
  · intro path session hcommand
    rw [hcommand] at hperforms
    exact hperforms.silent_unless_loaded
  · intro path hcommand
    rw [hcommand] at hperforms
    exact hperforms.silent_unless_read
  · intro hzero
    refine hperforms.isPositive ?_
    cases o with
    | none => rfl
    | some f => cases f <;> cases hstatus.symm.trans hzero

/-- A stop that the daemon refuses: both steps are taken, and the second one fails. -/
theorem refused_stop_exit_status :
    let program := runPrepared { command := .stopSession 4 } { settings := {}, sink := .terminal }
    let world := Machine.world Recording.reply
    let machine : Machine Recording := { daemon := ({} : Recording).rejectOn .setSessionState 1 }
    (∃ o, Performs [.ask ⟨.getSession, ⟨4⟩⟩, .build (.enter .shutdown)]
        (program.deeds world machine) o ∧ o.elim 0 Fault.status = 1) ∧
      (program.trace world machine).map Turn.isPositive = [true, false] := by
  intro program world machine
  have hstatus : (program.run world machine).1 = 1 := by
    decide +kernel
  obtain ⟨⟨o, hperforms, ho⟩, -⟩ := exit_status_tells_fault world machine
    { command := .stopSession 4 } { settings := {}, sink := .terminal } rfl (by decide +kernel)
  exact ⟨⟨o, hperforms, ho.symm.trans hstatus⟩, by decide +kernel⟩

end EmuControl.CommandLine
