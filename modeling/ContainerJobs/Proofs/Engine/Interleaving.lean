import ContainerJobs.Proofs.Engine.Dialogue
import Mathlib.Logic.Function.Basic

/-!
# Interleaved dialogues

Several dialogues share one engine and one start lock. They go on by steps, and each
step is one command with its answer, one answer of the lock, or the return of one
guard. Which of them goes on is decided from outside, step by step
(`Interleaving.run`), so what holds for every such schedule holds however the
dialogues meet.

A dialogue that is not interrupted goes as `Dialogue.run` has it
(`exists_run_replicate`), and the others stay where they are
(`rest_run_replicate_of_ne`).
-/

namespace ContainerJobs

/-- A command that one of several dialogues put to an engine. -/
structure Request (ι σ : Type) where
  /-- The dialogue. -/
  caller : ι
  /-- The command. -/
  command : Command
  /-- The engine that got it. -/
  before : σ

/-- Dialogues under way, named by `ι`, on an engine with states in `σ`. -/
structure Interleaving (ι σ α : Type) where
  /-- The engine. -/
  engine : σ
  /-- The start lock. -/
  lock : StartLock
  /-- What is left of each dialogue. -/
  rest : ι → Dialogue α
  /-- The guards that each dialogue was granted and has not given back. -/
  held : ι → List Guard
  /-- All commands so far, in their order. -/
  log : List (Request ι σ)

namespace Interleaving

variable {ι σ α : Type}

/-- The dialogues before their first steps. -/
def start (engine : σ) (lock : StartLock) (dialogues : ι → Dialogue α) : Interleaving ι σ α where
  engine
  lock
  rest := dialogues
  held _ := []
  log := []

/-- What a dialogue led to, if it is over. -/
def result? (s : Interleaving ι σ α) (i : ι) : Option α :=
  match s.rest i with
  | .done a => some a
  | _ => none

theorem result?_eq_some_iff {s : Interleaving ι σ α} {i : ι} {a : α} :
    s.result? i = some a ↔ s.rest i = .done a := by
  rw [result?]
  cases s.rest i <;> simp

variable [DecidableEq ι]

/-- One step of the dialogue `i`. One that is over makes no more steps. -/
def step (e : Engine σ) (s : Interleaving ι σ α) (i : ι) : Interleaving ι σ α :=
  match s.rest i with
  | .done _ => s
  | .ask c next =>
    { s with
      engine := (e c s.engine).2
      rest := Function.update s.rest i (next (e c s.engine).1)
      log := s.log ++ [{ caller := i, command := c, before := s.engine }] }
  | .acquire name next =>
    match s.lock.acquire? name with
    | some (g, lock) =>
      { s with
        lock
        rest := Function.update s.rest i (next (some g))
        held := Function.update s.held i (g :: s.held i) }
    | none => { s with rest := Function.update s.rest i (next none) }
  | .release g next =>
    { s with
      lock := s.lock.release g
      rest := Function.update s.rest i next
      held := Function.update s.held i ((s.held i).erase g) }

/-- The steps of a schedule, which says whose turn it is. -/
def run (e : Engine σ) (s : Interleaving ι σ α) (schedule : List ι) : Interleaving ι σ α :=
  schedule.foldl (step e) s

variable {e : Engine σ} {s : Interleaving ι σ α} {i : ι}

/-- What every step keeps, a run keeps. -/
theorem run_induction {I : Interleaving ι σ α → Prop} (step : ∀ s i, I s → I (s.step e i))
    (schedule : List ι) (h : I s) : I (s.run e schedule) := by
  induction schedule generalizing s with
  | nil => exact h
  | cons i schedule ih => exact ih (step s i h)

theorem run_cons (schedule : List ι) :
    s.run e (i :: schedule) = (s.step e i).run e schedule := rfl

theorem run_append (first second : List ι) :
    s.run e (first ++ second) = (s.run e first).run e second := List.foldl_append

theorem step_done {a : α} (h : s.rest i = .done a) : s.step e i = s := by
  rw [step, h]

theorem step_ask {c : Command} {next : Answer → Dialogue α} (h : s.rest i = .ask c next) :
    s.step e i = { s with
      engine := (e c s.engine).2
      rest := Function.update s.rest i (next (e c s.engine).1)
      log := s.log ++ [{ caller := i, command := c, before := s.engine }] } := by
  rw [step, h]

theorem step_grant {name : String} {next : Option Guard → Dialogue α} {g : Guard}
    {lock : StartLock} (h : s.rest i = .acquire name next)
    (granted : s.lock.acquire? name = some (g, lock)) :
    s.step e i = { s with
      lock
      rest := Function.update s.rest i (next (some g))
      held := Function.update s.held i (g :: s.held i) } := by
  rw [step, h]
  simp only [granted]

theorem step_deny {name : String} {next : Option Guard → Dialogue α}
    (h : s.rest i = .acquire name next) (denied : s.lock.acquire? name = none) :
    s.step e i = { s with rest := Function.update s.rest i (next none) } := by
  rw [step, h]
  simp only [denied]

theorem step_release {g : Guard} {next : Dialogue α} (h : s.rest i = .release g next) :
    s.step e i = { s with
      lock := s.lock.release g
      rest := Function.update s.rest i next
      held := Function.update s.held i ((s.held i).erase g) } := by
  rw [step, h]

/-- A step of one dialogue leaves the others where they are. -/
theorem rest_step_of_ne {j : ι} (h : j ≠ i) : (s.step e i).rest j = s.rest j := by
  cases hd : s.rest i with
  | done a => rw [step_done hd]
  | ask c next => simp [step_ask hd, h]
  | acquire name next =>
    cases hl : s.lock.acquire? name with
    | none => simp [step_deny hd hl, h]
    | some p => simp [step_grant hd hl, h]
  | release g next => simp [step_release hd, h]

theorem rest_run_replicate_of_ne {j : ι} (h : j ≠ i) (n : Nat) :
    (s.run e (List.replicate n i)).rest j = s.rest j := by
  induction n generalizing s with
  | zero => rfl
  | succ n ih => rw [List.replicate_succ, run_cons, ih, rest_step_of_ne h]

/-- What a dialogue comes to if it goes on alone: its value, the engine and the lock. -/
def alone (e : Engine σ) (s : Interleaving ι σ α) (i : ι) : α × σ × StartLock :=
  let o := (s.rest i).run e s.engine s.lock
  (o.value, o.engine, o.lock)

omit [DecidableEq ι] in
theorem alone_start (engine : σ) (lock : StartLock) (dialogues : ι → Dialogue α) :
    (start engine lock dialogues).alone e i = (((dialogues i).run e engine lock).value,
      ((dialogues i).run e engine lock).engine, ((dialogues i).run e engine lock).lock) := rfl

/-- A step of a dialogue does not change what it comes to. -/
theorem alone_step : (s.step e i).alone e i = s.alone e i := by
  rw [alone, alone]
  cases hd : s.rest i with
  | done a => rw [step_done hd, hd]
  | ask c next => simp [step_ask hd]
  | acquire name next =>
    rw [Dialogue.run]
    cases hl : s.lock.acquire? name with
    | none => simp [step_deny hd hl]
    | some p => simp [step_grant hd hl]
  | release g next => simp [step_release hd]

/-- Nor does it matter to it that another one is refused a name. -/
theorem alone_step_of_deny {j : ι} {name : String} {next : Option Guard → Dialogue α}
    (hd : s.rest i = .acquire name next) (denied : s.lock.acquire? name = none) (h : j ≠ i) :
    (s.step e i).alone e j = s.alone e j := by
  rw [step_deny hd denied, alone, alone]
  simp only [Function.update_of_ne h]

/-- Left alone, a dialogue comes to the end that it has by itself. -/
theorem exists_run_replicate (e : Engine σ) (s : Interleaving ι σ α) (i : ι) :
    ∃ n, let t := s.run e (List.replicate n i)
      t.result? i = some (s.alone e i).1 ∧ (t.engine, t.lock) = (s.alone e i).2 := by
  generalize hd : s.rest i = d
  induction d generalizing s with
  | done a =>
    have finished : s.alone e i = (a, s.engine, s.lock) := by rw [alone, hd]; rfl
    rw [finished]
    exact ⟨0, result?_eq_some_iff.2 hd, rfl⟩
  | ask c next ih =>
    obtain ⟨n, hn⟩ := ih (e c s.engine).1 (s.step e i) (by simp [step_ask hd])
    exact ⟨n + 1, alone_step (s := s) ▸ hn⟩
  | acquire name next ih =>
    cases hl : s.lock.acquire? name with
    | none =>
      obtain ⟨n, hn⟩ := ih none (s.step e i) (by simp [step_deny hd hl])
      exact ⟨n + 1, alone_step (s := s) ▸ hn⟩
    | some p =>
      obtain ⟨n, hn⟩ := ih (some p.1) (s.step e i) (by simp [step_grant hd hl])
      exact ⟨n + 1, alone_step (s := s) ▸ hn⟩
  | release g next ih =>
    obtain ⟨n, hn⟩ := ih (s.step e i) (by simp [step_release hd])
    exact ⟨n + 1, alone_step (s := s) ▸ hn⟩

end Interleaving

end ContainerJobs
