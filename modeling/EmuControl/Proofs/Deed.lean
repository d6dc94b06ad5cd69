import EmuControl.CommandLine.Run
import EmuControl.Proofs.Trace

/-!
# Deeds of a run

Besides its calls, what a run does to files counts. `Program.deeds` lists both in the order in which
they happen, each with its answer. A program that has nothing to do with files does nothing but its
calls, so everything that is known of its trace is known of its deeds (`deeds_of_fileless`).

The log does not count. A program with announced calls, or with a filtered log, is the program
itself in another world: one that logs with each call, or that keeps quiet about some events.
-/
namespace EmuControl

open Wire

/-- Something that matters outside of a run, with its answer. -/
inductive Deed where
  | call (turn : Turn)
  | read (name : String) (answer : Except FileError Bytes)
  | write (name : String) (contents : Bytes) (answer : Except FileError Unit)

def Deed.turn? : Deed → Option Turn
  | call turn => some turn
  | _ => none

/-- What an action does. -/
def Action.deeds : (a : Action) → a.Answer → List Deed
  | .call c, answer => [.call ⟨c, answer⟩]
  | .readFile name, answer => [.read name answer]
  | .writeFile name contents, answer => [.write name contents answer]
  | _, _ => []

theorem Action.turns_eq (a : Action) (answer : a.Answer) :
    a.turns answer = (a.deeds answer).filterMap Deed.turn? := by
  cases a <;> rfl

/-- Announces each call to a world before the call is made. -/
def World.announcing {σ : Type} (world : World σ) : World σ
  | .call c, s =>
    world (.call c) ((announcements c).foldl (fun s e => (world (.log e) s).2) s)
  | a, s => world a s

/-- Passes on to a world only the events that are kept. -/
def World.keeping {σ : Type} (keep : Log.Event → Bool) (world : World σ) : World σ
  | .log e, s => if keep e then world (.log e) s else ((), s)
  | a, s => world a s

namespace Program

variable {α β ε σ : Type} (world : World σ)

/-- What a run does. -/
def deeds : Program α → σ → List Deed
  | done _, _ => []
  | act a next, s => a.deeds (world a s).1 ++ (next (world a s).1).deeds (world a s).2

@[simp] theorem run_pure (a : α) (s : σ) : (pure a : Program α).run world s = (a, s) :=
  rfl

@[simp] theorem deeds_pure (a : α) (s : σ) : (pure a : Program α).deeds world s = [] :=
  rfl

theorem run_bind (p : Program α) (f : α → Program β) (s : σ) :
    (p >>= f).run world s = (f (p.run world s).1).run world (p.run world s).2 := by
  induction p generalizing s with
  | done a => rfl
  | act a next ih => exact ih (world a s).1 (world a s).2

theorem run_ok_bind {world : World σ} {x : ExceptT ε Program α} {a : α} {s s' : σ}
    (h : x.run.run world s = (.ok a, s')) (f : α → ExceptT ε Program β) :
    (x >>= f).run.run world s = (f a).run.run world s' := by
  rw [ExceptT.run_bind, run_bind, h]

theorem deeds_bind (p : Program α) (f : α → Program β) (s : σ) :
    (p >>= f).deeds world s =
      p.deeds world s ++ (f (p.run world s).1).deeds world (p.run world s).2 := by
  induction p generalizing s with
  | done a => rfl
  | act a next ih =>
    have hrest : (next (world a s).1 >>= f).deeds world (world a s).2 = _ := ih _ _
    exact (congrArg (_ ++ ·) hrest).trans (List.append_assoc _ _ _).symm

theorem trace_eq_filterMap (p : Program α) (s : σ) :
    p.trace world s = (p.deeds world s).filterMap Deed.turn? := by
  induction p generalizing s with
  | done a => rfl
  | act a next ih => rw [trace, deeds, List.filterMap_append, Action.turns_eq, ih]

/-- A program that may fail ends with its first error, or goes on from a value. -/
theorem except_bind_run (x : ExceptT ε Program α) (f : α → ExceptT ε Program β) (s : σ) :
    (∃ e s', x.run.run world s = (.error e, s') ∧ (x >>= f).run.run world s = (.error e, s') ∧
        (x >>= f).run.deeds world s = x.run.deeds world s) ∨
      ∃ a s', x.run.run world s = (.ok a, s') ∧
        (x >>= f).run.run world s = (f a).run.run world s' ∧
        (x >>= f).run.deeds world s = x.run.deeds world s ++ (f a).run.deeds world s' := by
  rw [ExceptT.run_bind, run_bind, deeds_bind]
  rcases x.run.run world s with ⟨e | a, s'⟩
  · exact .inl ⟨e, s', rfl, rfl, List.append_nil _⟩
  · exact .inr ⟨a, s', rfl, rfl, rfl⟩

section Log

theorem logAll_in (events : List Log.Event) (p : Program α) (s : σ) :
    let s' := events.foldl (fun s e => (world (.log e) s).2) s
    (logAll events p).run world s = p.run world s' ∧
      (logAll events p).deeds world s = p.deeds world s' := by
  induction events generalizing s with
  | nil => exact ⟨rfl, rfl⟩
  | cons e events ih => exact ih _

theorem announceCalls_in (p : Program α) (s : σ) :
    p.announceCalls.run world s = p.run world.announcing s ∧
      p.announceCalls.deeds world s = p.deeds world.announcing s := by
  induction p generalizing s with
  | done a => exact ⟨rfl, rfl⟩
  | act a next ih =>
    cases a with
    | call c =>
      obtain ⟨hrun, hdeeds⟩ := logAll_in world (announcements c)
        (act (.call c) fun answer => (next answer).announceCalls) s
      exact ⟨hrun.trans (ih _ _).1, hdeeds.trans (congrArg (_ ++ ·) (ih _ _).2)⟩
    | _ => exact ⟨(ih _ _).1, congrArg (_ ++ ·) (ih _ _).2⟩

theorem filterLog_in (keep : Log.Event → Bool) (p : Program α) (s : σ) :
    (p.filterLog keep).run world s = p.run (world.keeping keep) s ∧
      (p.filterLog keep).deeds world s = p.deeds (world.keeping keep) s := by
  induction p generalizing s with
  | done a => exact ⟨rfl, rfl⟩
  | act a next ih =>
    cases a with
    | log e =>
      simp only [filterLog, run, deeds, World.keeping]
      split
      · exact ih _ _
      · exact ih _ _
    | _ => exact ⟨(ih _ _).1, congrArg (_ ++ ·) (ih _ _).2⟩

end Log

/-! Programs that leave files alone -/

/-- Neither reads nor writes a file, whatever the answers are. -/
def Fileless : Program α → Prop
  | done _ => True
  | act (.readFile _) _ => False
  | act (.writeFile _ _) _ => False
  | act _ next => ∀ answer, (next answer).Fileless

theorem deeds_of_fileless {p : Program α} (h : p.Fileless) (s : σ) :
    p.deeds world s = (p.trace world s).map .call := by
  induction p generalizing s with
  | done a => rfl
  | act a next ih =>
    cases a with
    | readFile name => exact h.elim
    | writeFile name contents => exact h.elim
    | call c => exact congrArg (_ :: ·) (ih _ (h _) _)
    | _ => exact ih _ (h _) _

@[simp] theorem fileless_pure (a : α) : (pure a : Program α).Fileless :=
  trivial

theorem fileless_bind {p : Program α} {f : α → Program β} (hp : p.Fileless)
    (hf : ∀ a, (f a).Fileless) : (p >>= f).Fileless := by
  induction p with
  | done a => exact hf a
  | act a next ih =>
    cases a with
    | readFile name => exact hp.elim
    | writeFile name contents => exact hp.elim
    | _ => exact fun answer => ih answer (hp answer)

@[simp] theorem fileless_call (m : Method) (r : m.Request) : (call m r).Fileless :=
  fun _ => trivial

@[simp] theorem fileless_log (level : Log.Level) (component : Log.Component) (message : String) :
    (log level component message).Fileless :=
  fun _ => trivial

/-- A program that may fail and leaves files alone. -/
def LeavesFiles (x : ExceptT ε Program α) : Prop :=
  x.run.Fileless

@[simp] theorem leavesFiles_pure (a : α) : LeavesFiles (pure a : ExceptT ε Program α) :=
  trivial

@[simp] theorem leavesFiles_throw (e : ε) : LeavesFiles (throw e : ExceptT ε Program α) :=
  trivial

@[simp] theorem leavesFiles_bind {x : ExceptT ε Program α} {f : α → ExceptT ε Program β}
    (hx : LeavesFiles x) (hf : ∀ a, LeavesFiles (f a)) : LeavesFiles (x >>= f) := by
  unfold LeavesFiles
  rw [ExceptT.run_bind]
  refine fileless_bind hx fun y => ?_
  cases y with
  | ok a => exact hf a
  | error e => trivial

@[simp] theorem leavesFiles_map {x : ExceptT ε Program α} (f : α → β) (hx : LeavesFiles x) :
    LeavesFiles (f <$> x) := by
  rw [map_eq_pure_bind]
  exact leavesFiles_bind hx fun a => leavesFiles_pure (f a)

@[simp] theorem leavesFiles_lift {p : Program α} (hp : p.Fileless) :
    LeavesFiles (ExceptT.lift p : ExceptT ε Program α) := by
  unfold LeavesFiles
  rw [ExceptT.run_lift, map_eq_pure_bind]
  exact fileless_bind hp fun _ => trivial

@[simp] theorem leavesFiles_ite {c : Prop} [Decidable c] {x y : ExceptT ε Program α}
    (hx : LeavesFiles x) (hy : LeavesFiles y) : LeavesFiles (if c then x else y) := by
  split
  · exact hx
  · exact hy

end Program

/-- In every world, a file is read as what the world answers. -/
theorem Workflow.readFile_run {σ : Type} (world : World σ) (name : String) (s : σ) :
    (readFile name).run.run world s =
      ((world (.readFile name) s).1.mapError .file, (world (.readFile name) s).2) := by
  simp only [readFile, Program.perform, ExceptT.run_mk, Program.run_bind, Program.run]
  rcases world (.readFile name) s with ⟨_ | _, s'⟩
  · rfl
  · rfl

namespace SessionM

variable {α β : Type}

/-- Leaves files alone on every context. -/
def Fileless (op : SessionM α) : Prop :=
  ∀ ctx, (op.run.run ctx).Fileless

@[simp] theorem fileless_pure (a : α) : Fileless (pure a) :=
  fun _ => trivial

@[simp] theorem fileless_bind {op : SessionM α} {f : α → SessionM β} (hop : op.Fileless)
    (hf : ∀ a, (f a).Fileless) : Fileless (op >>= f) := by
  intro ctx
  rw [ExceptT.run_bind, StateT.run_bind]
  refine Program.fileless_bind (hop ctx) fun y => ?_
  obtain ⟨e | a, ctx'⟩ := y
  · trivial
  · exact hf a ctx'

@[simp] theorem fileless_map {op : SessionM α} (f : α → β) (hop : op.Fileless) :
    Fileless (f <$> op) := by
  rw [map_eq_pure_bind]
  exact fileless_bind hop fun a => fileless_pure (f a)

@[simp] theorem fileless_ite {c : Prop} [Decidable c] {op op' : SessionM α} (hop : op.Fileless)
    (hop' : op'.Fileless) : Fileless (if c then op else op') := by
  split
  · exact hop
  · exact hop'

end SessionM

namespace Client

open Program

variable {α : Type}

theorem leavesFiles_request (m : Method) (r : m.Request) : LeavesFiles (request m r) := by
  refine fileless_bind (fileless_call m r) fun answer => ?_
  cases answer <;> trivial

theorem leavesFiles_request_bind {m : Method} (r : m.Request) {k : m.Response → ClientM α}
    (hk : ∀ response, LeavesFiles (k response)) : LeavesFiles (request m r >>= k) :=
  leavesFiles_bind (leavesFiles_request m r) hk

@[simp] theorem leavesFiles_note (level : Log.Level) (message : String) :
    LeavesFiles (note level message) :=
  leavesFiles_lift (fileless_log _ _ _)

@[simp] theorem leavesFiles_mapped (m : Mapped α) : LeavesFiles (mapped m) := by
  cases m <;> trivial

@[simp] theorem leavesFiles_nodeId (node : Node) (operation : String) :
    LeavesFiles (nodeId node operation) := by
  unfold nodeId
  split <;> trivial

@[simp] theorem fileless_onSession {op : SessionContext → ClientM α}
    (h : ∀ ctx, LeavesFiles (op ctx)) : (onSession op).Fileless :=
  fun ctx => fileless_bind (h ctx) fun _ => trivial

@[simp] theorem fileless_report (level : Log.Level) (message : SessionContext → String) :
    (report level message).Fileless :=
  fileless_onSession fun _ => leavesFiles_lift (fileless_log _ _ _)

@[simp] theorem fileless_setState (state : SessionState) : (setState state).Fileless := by
  intro ctx
  refine fileless_bind (leavesFiles_request _ _) fun y => ?_
  cases y with
  | error e => trivial
  | ok response =>
    dsimp only
    split
    · exact fileless_bind (fileless_log _ _ _) fun _ => trivial
    · exact fileless_bind (fileless_log _ _ _) fun _ => trivial

@[simp] theorem fileless_stop : stop.Fileless := by
  simp [stop]

theorem fileless_allAccepted {step : α → SessionM Bool} (h : ∀ a, (step a).Fileless)
    (as : List α) : (allAccepted step as).Fileless := by
  induction as with
  | nil => exact SessionM.fileless_pure true
  | cons a rest ih => simp [allAccepted, h, ih]

theorem fileless_addHook (hook : Hook) : (addHook hook).Fileless := by
  refine SessionM.fileless_bind (fileless_onSession fun _ => ?_) (by simp)
  exact leavesFiles_request_bind _ (by simp)

theorem fileless_addLink (link : Link) : (addLink link).Fileless := by
  refine SessionM.fileless_bind (fileless_onSession fun ctx => ?_) (by simp)
  exact leavesFiles_bind (leavesFiles_mapped _) fun _ => leavesFiles_request_bind _ (by simp)

theorem fileless_pinWlanConfig (node : Node) : (pinWlanConfig node).Fileless := by
  refine SessionM.fileless_bind (fileless_onSession fun _ => ?_) fun config => ?_
  · exact leavesFiles_bind (leavesFiles_nodeId _ _) fun _ => leavesFiles_request_bind _ (by simp)
  · refine SessionM.fileless_bind (fileless_onSession fun _ => ?_) (by simp)
    exact leavesFiles_bind (leavesFiles_nodeId _ _) fun _ => leavesFiles_request_bind _ (by simp)

theorem fileless_addNode (node : Node) : (addNode node).Fileless := by
  have hcreate : (onSession (createNode node)).Fileless :=
    fileless_onSession fun _ => leavesFiles_request_bind _ (by simp)
  unfold addNode
  cases node.isWlan with
  | true => exact SessionM.fileless_bind (fileless_pinWlanConfig node) (by simp [hcreate])
  | false => exact SessionM.fileless_bind (SessionM.fileless_pure true) (by simp [hcreate])

@[simp] theorem fileless_start (nodes : List Node) (links : List Link) (hooks : List Hook) :
    (start nodes links hooks).Fileless := by
  -- every part goes on only from an acceptance
  have hpart : ∀ {op rest : SessionM Bool}, op.Fileless → rest.Fileless →
      SessionM.Fileless (do if !(← op) then return false else rest) :=
    fun hop hrest => SessionM.fileless_bind hop (by simp [hrest])
  refine SessionM.fileless_bind (fileless_report _ _) fun _ => ?_
  refine hpart (fileless_allAccepted fileless_setState _) ?_
  refine hpart (fileless_allAccepted fileless_addHook hooks) ?_
  refine hpart (fileless_allAccepted fileless_addNode nodes) ?_
  refine hpart (fileless_allAccepted fileless_addLink links) ?_
  exact fileless_setState .instantiation

end Client

end EmuControl
