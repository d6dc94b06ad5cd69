import EmuControl.Client.Basic
import Mathlib.Data.List.Basic

/-!
# Traces of programs

What a program says to the daemon and what it is told is its trace. `Program.trace` reads the trace
off a run in a world; `Program.Yields` says which traces and ends a program has at all, whatever its
actions are answered with. A statement about everything that a program yields is therefore one about
every world, and so about every daemon, every file system and every state of them.

Only calls leave a mark in a trace. Log events, files and the terminal do not.
-/
namespace EmuControl

open Wire

/-- A call with the answer it got. -/
structure Turn where
  call : Call
  answer : Except ApiError call.method.Response

/-- Whether the call completed and its response is no refusal. -/
def Turn.isPositive (turn : Turn) : Bool :=
  match turn.answer with
  | .ok r => turn.call.method.isPositive r
  | .error _ => false

/-- The mark that an action leaves in a trace. -/
def Action.turns : (a : Action) → a.Answer → List Turn
  | .call c, answer => [⟨c, answer⟩]
  | _, _ => []

namespace Program

variable {α β σ : Type}

/-- The calls of a run, with their answers. -/
def trace (world : World σ) : Program α → σ → List Turn
  | done _, _ => []
  | act a next, s =>
    a.turns (world a s).1 ++ (next (world a s).1).trace world (world a s).2

/-- Some answers lead the program through the turns `t` to the end `b`. -/
def Yields : Program α → List Turn → α → Prop
  | done a, t, b => t = [] ∧ b = a
  | act a next, t, b => ∃ answer u, (next answer).Yields u b ∧ t = a.turns answer ++ u

/-- A run in a world is one of the things that a program yields. -/
theorem yields_run (world : World σ) (p : Program α) (s : σ) :
    p.Yields (p.trace world s) (p.run world s).1 := by
  induction p generalizing s with
  | done a => exact ⟨rfl, rfl⟩
  | act a next ih => exact ⟨(world a s).1, _, ih (world a s).1 (world a s).2, rfl⟩

theorem mem_trace {world : World σ} {p : Program α} {s : σ} {turn : Turn}
    (h : turn ∈ p.trace world s) : ∃ s', turn.answer = (world (.call turn.call) s').1 := by
  induction p generalizing s with
  | done a => simp [trace] at h
  | act a next ih =>
    rcases List.mem_append.mp h with h | h
    · cases a with
      | call c =>
        rw [List.mem_singleton.mp h]
        exact ⟨s, rfl⟩
      | _ => simp [Action.turns] at h
    · exact ih (world a s).1 h

theorem yields_pure {a b : α} {t : List Turn} :
    (pure a : Program α).Yields t b ↔ t = [] ∧ b = a :=
  Iff.rfl

theorem yields_bind {p : Program α} {f : α → Program β} {t : List Turn} {b : β} :
    (p >>= f).Yields t b ↔ ∃ t₁ a t₂, p.Yields t₁ a ∧ (f a).Yields t₂ b ∧ t = t₁ ++ t₂ := by
  induction p generalizing t with
  | done a =>
    constructor
    · intro h
      exact ⟨[], a, t, ⟨rfl, rfl⟩, h, rfl⟩
    · rintro ⟨_, _, t₂, ⟨rfl, rfl⟩, h, rfl⟩
      exact h
  | act a next ih =>
    constructor
    · rintro ⟨answer, u, h, rfl⟩
      obtain ⟨t₁, b', t₂, h₁, h₂, rfl⟩ := (ih answer).mp h
      exact ⟨a.turns answer ++ t₁, b', t₂, ⟨answer, t₁, h₁, rfl⟩, h₂, by rw [List.append_assoc]⟩
    · rintro ⟨_, b', t₂, ⟨answer, t₁, h₁, rfl⟩, h₂, rfl⟩
      exact ⟨answer, t₁ ++ t₂, (ih answer).mpr ⟨t₁, b', t₂, h₁, h₂, rfl⟩, by rw [List.append_assoc]⟩

theorem yields_perform {a : Action} {t : List Turn} {answer : a.Answer} :
    (perform a).Yields t answer ↔ t = a.turns answer := by
  constructor
  · rintro ⟨_, _, ⟨rfl, rfl⟩, rfl⟩
    exact List.append_nil _
  · rintro rfl
    exact ⟨answer, [], ⟨rfl, rfl⟩, (List.append_nil _).symm⟩

/-- Whatever the answers are, the program makes no call. -/
def Quiet (p : Program α) : Prop :=
  ∀ t a, p.Yields t a → t = []

theorem quiet_pure (a : α) : (pure a : Program α).Quiet :=
  fun _ _ h => h.1

theorem quiet_perform {a : Action} (ha : ∀ answer, a.turns answer = []) : (perform a).Quiet := by
  intro t answer h
  rw [yields_perform.mp h, ha]

@[simp] theorem quiet_log (level : Log.Level) (component : Log.Component) (message : String) :
    (log level component message).Quiet :=
  quiet_perform fun _ => rfl

/-! A program that may fail ends in an error or in a value, and goes on only from a value. -/

variable {ε : Type}

theorem yields_except_bind {x : ExceptT ε Program α} {f : α → ExceptT ε Program β}
    {t : List Turn} {r : Except ε β} :
    (x >>= f).run.Yields t r ↔
      (∃ e, x.run.Yields t (.error e) ∧ r = .error e) ∨
      ∃ t₁ a t₂, x.run.Yields t₁ (.ok a) ∧ (f a).run.Yields t₂ r ∧ t = t₁ ++ t₂ := by
  rw [ExceptT.run_bind, yields_bind]
  constructor
  · rintro ⟨t₁, (e | a), t₂, h₁, h₂, rfl⟩
    · obtain ⟨rfl, rfl⟩ := h₂
      exact .inl ⟨e, by rwa [List.append_nil], rfl⟩
    · exact .inr ⟨t₁, a, t₂, h₁, h₂, rfl⟩
  · rintro (⟨e, h, rfl⟩ | ⟨t₁, a, t₂, h₁, h₂, rfl⟩)
    · exact ⟨t, .error e, [], h, ⟨rfl, rfl⟩, (List.append_nil t).symm⟩
    · exact ⟨t₁, .ok a, t₂, h₁, h₂, rfl⟩

theorem yields_except_lift {p : Program α} {t : List Turn} {r : Except ε α} :
    (ExceptT.lift p : ExceptT ε Program α).run.Yields t r ↔ ∃ a, p.Yields t a ∧ r = .ok a := by
  rw [ExceptT.run_lift, map_eq_pure_bind, yields_bind]
  constructor
  · rintro ⟨t₁, a, _, h, ⟨rfl, rfl⟩, rfl⟩
    exact ⟨a, by rwa [List.append_nil], rfl⟩
  · rintro ⟨a, h, rfl⟩
    exact ⟨t, a, [], h, ⟨rfl, rfl⟩, (List.append_nil t).symm⟩

/-- A program that may fail and makes no call. -/
def Silent (x : ExceptT ε Program α) : Prop :=
  x.run.Quiet

@[simp] theorem silent_pure (a : α) : Silent (pure a : ExceptT ε Program α) :=
  quiet_pure _

@[simp] theorem silent_throw (e : ε) : Silent (throw e : ExceptT ε Program α) :=
  quiet_pure _

@[simp] theorem silent_bind {x : ExceptT ε Program α} {f : α → ExceptT ε Program β}
    (hx : Silent x) (hf : ∀ a, Silent (f a)) : Silent (x >>= f) := by
  intro t r h
  rcases yields_except_bind.mp h with ⟨e, h₁, _⟩ | ⟨t₁, a, t₂, h₁, h₂, rfl⟩
  · exact hx t _ h₁
  · rw [hx t₁ _ h₁, hf a t₂ r h₂, List.append_nil]

@[simp] theorem silent_map {x : ExceptT ε Program α} (f : α → β) (hx : Silent x) :
    Silent (f <$> x) := by
  rw [map_eq_pure_bind]
  exact silent_bind hx fun a => silent_pure (f a)

@[simp] theorem silent_ite {c : Prop} [Decidable c] {x y : ExceptT ε Program α}
    (hx : Silent x) (hy : Silent y) : Silent (if c then x else y) := by
  split
  · exact hx
  · exact hy

@[simp] theorem silent_lift {p : Program α} (hp : p.Quiet) :
    Silent (ExceptT.lift p : ExceptT ε Program α) := by
  intro t r h
  obtain ⟨a, h₁, _⟩ := yields_except_lift.mp h
  exact hp t a h₁

end Program

/-! An operation on a session ends in a result and a context. -/

namespace SessionM

variable {α β : Type}

/-- Performed on the context `ctx`, the operation may go through the turns `t`, end in `r` and leave
the context `ctx'`. -/
def Yields (op : SessionM α) (ctx : SessionContext) (t : List Turn) (r : Except ConnectError α)
    (ctx' : SessionContext) : Prop :=
  (op.run.run ctx).Yields t (r, ctx')

theorem yields_pure {a : α} {ctx ctx' : SessionContext} {t : List Turn}
    {r : Except ConnectError α} :
    Yields (pure a) ctx t r ctx' ↔ t = [] ∧ r = .ok a ∧ ctx' = ctx := by
  change t = [] ∧ (r, ctx') = (.ok a, ctx) ↔ _
  rw [Prod.mk.injEq]

theorem yields_bind {op : SessionM α} {f : α → SessionM β} {ctx ctx' : SessionContext}
    {t : List Turn} {r : Except ConnectError β} :
    Yields (op >>= f) ctx t r ctx' ↔
      (∃ e, op.Yields ctx t (.error e) ctx' ∧ r = .error e) ∨
      ∃ t₁ a ctx₁ t₂, op.Yields ctx t₁ (.ok a) ctx₁ ∧ (f a).Yields ctx₁ t₂ r ctx' ∧
        t = t₁ ++ t₂ := by
  unfold Yields
  rw [ExceptT.run_bind, StateT.run_bind, Program.yields_bind]
  constructor
  · rintro ⟨t₁, ⟨(e | a), ctx₁⟩, t₂, h₁, h₂, rfl⟩
    · obtain ⟨rfl, h⟩ := h₂
      obtain ⟨rfl, rfl⟩ := Prod.mk.inj h
      exact .inl ⟨e, by rwa [List.append_nil], rfl⟩
    · exact .inr ⟨t₁, a, ctx₁, t₂, h₁, h₂, rfl⟩
  · rintro (⟨e, h, rfl⟩ | ⟨t₁, a, ctx₁, t₂, h₁, h₂, rfl⟩)
    · exact ⟨t, (.error e, ctx'), [], h, ⟨rfl, rfl⟩, (List.append_nil t).symm⟩
    · exact ⟨t₁, (.ok a, ctx₁), t₂, h₁, h₂, rfl⟩

end SessionM

end EmuControl
