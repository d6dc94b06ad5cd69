import EmuControl.Daemon.Error
import EmuControl.Daemon.FileSystem
import EmuControl.Log
import EmuControl.Wire.Method

/-!
# Programs

Whatever talks to the daemon, to files or to the terminal is a program: a tree that names an action
and says how to go on for every answer. A program has no behaviour of its own. It runs in a world
that answers its actions, and everything that is said about the calls of a client is said about
programs, for every world.
-/
namespace EmuControl

inductive Action where
  | call (c : Wire.Call)
  | log (e : Log.Event)
  | readFile (name : String)
  | writeFile (name : String) (contents : Bytes)
  | print (text : String)
  | complain (text : String)

namespace Action

/-- What an action is answered with. -/
abbrev Answer : Action → Type
  | call c => Except ApiError c.method.Response
  | log _ => Unit
  | readFile _ => Except FileError Bytes
  | writeFile _ _ => Except FileError Unit
  | print _ => Unit
  | complain _ => Unit

end Action

inductive Program (α : Type) : Type where
  | done (a : α)
  | act (a : Action) (next : a.Answer → Program α)

namespace Program

variable {α β : Type}

def bind : Program α → (α → Program β) → Program β
  | done a, f => f a
  | act a next, f => act a fun answer => (next answer).bind f

instance : Monad Program where
  pure := done
  bind := bind

theorem bind_done (p : Program α) : p.bind done = p := by
  induction p with
  | done a => rfl
  | act a next ih => exact congrArg (act a) (funext ih)

theorem bind_assoc {γ : Type} (p : Program α) (f : α → Program β) (g : β → Program γ) :
    (p.bind f).bind g = p.bind fun a => (f a).bind g := by
  induction p with
  | done a => rfl
  | act a next ih => exact congrArg (act a) (funext ih)

instance : LawfulMonad Program :=
  LawfulMonad.mk' Program bind_done (fun _ _ => rfl) bind_assoc

/-- The program of one action. -/
def perform (a : Action) : Program a.Answer :=
  act a done

def call (m : Wire.Method) (r : m.Request) : Program (Except ApiError m.Response) :=
  perform (.call ⟨m, r⟩)

def log (level : Log.Level) (component : Log.Component) (message : String) : Program Unit :=
  perform (.log { level, component, message })

end Program

/-- A daemon with states in `σ` answers every call. -/
abbrev Daemon (σ : Type) := (c : Wire.Call) → σ → Except ApiError c.method.Response × σ

/-- A world with states in `σ` answers every action. -/
abbrev World (σ : Type) := (a : Action) → σ → a.Answer × σ

/-- Runs a program to its end. -/
def Program.run {α σ : Type} (world : World σ) : Program α → σ → α × σ
  | done a, s => (a, s)
  | act a next, s =>
    let (answer, s) := world a s
    (next answer).run world s

/-- A computer on which programs run. -/
structure Machine (σ : Type) where
  daemon : σ
  files : FileSystem := {}
  log : List Log.Event := []
  output : String := ""
  complaints : String := ""

namespace Machine

/-- The world of a computer that reaches a daemon. -/
def world {σ : Type} (daemon : Daemon σ) : World (Machine σ)
  | .call c, m =>
    let (answer, s) := daemon c m.daemon
    (answer, { m with daemon := s })
  | .log e, m => ((), { m with log := m.log ++ [e] })
  | .readFile name, m => (m.files.read name, m)
  | .writeFile name contents, m =>
    match m.files.write name contents with
    | .ok files => (.ok (), { m with files })
    | .error e => (.error e, m)
  | .print text, m => ((), { m with output := m.output ++ text })
  | .complain text, m => ((), { m with complaints := m.complaints ++ text })

end Machine

end EmuControl
