import ContainerJobs.Engine.Basic
import ContainerJobs.Lock

/-!
# Dialogues with an engine

An operation of a runner is a dialogue: it puts commands to the engine one after
the other, takes and gives back start locks, and each next step may depend on all
answers so far. A dialogue says nothing about the engine, so what holds of a
dialogue holds with any engine, and dialogues that share an engine can be
interleaved step by step. `Dialogue.run` carries one out without interruption.
-/

namespace ContainerJobs

/-- A dialogue that ends with a value. -/
inductive Dialogue (α : Type) where
  /-- The dialogue is over. -/
  | done (value : α)
  /-- A command is put to the engine, and its answer decides how to go on. -/
  | ask (command : Command) (next : Answer → Dialogue α)
  /-- A name is asked from the start lock; whether a guard is granted decides
      how to go on. -/
  | acquire (name : String) (next : Option Guard → Dialogue α)
  /-- A guard is given back. -/
  | release (guard : Guard) (next : Dialogue α)

namespace Dialogue

variable {α β γ : Type}

/-- The dialogue `d`, and then the one that its value decides. -/
def bind (d : Dialogue α) (f : α → Dialogue β) : Dialogue β :=
  match d with
  | done a => f a
  | ask c next => ask c fun a => (next a).bind f
  | acquire name next => acquire name fun g => (next g).bind f
  | release g next => release g (next.bind f)

instance : Monad Dialogue where
  pure := done
  bind := bind

@[simp] theorem bind_done (d : Dialogue α) : d.bind done = d := by
  induction d with
  | done a => rfl
  | ask c next ih => simp [bind, ih]
  | acquire name next ih => simp [bind, ih]
  | release g next ih => simp [bind, ih]

theorem bind_assoc (d : Dialogue α) (f : α → Dialogue β) (g : β → Dialogue γ) :
    (d.bind f).bind g = d.bind fun a => (f a).bind g := by
  induction d with
  | done a => rfl
  | ask c next ih => simp [bind, ih]
  | acquire name next ih => simp [bind, ih]
  | release h next ih => simp [bind, ih]

instance : LawfulMonad Dialogue :=
  LawfulMonad.mk' Dialogue (fun d => bind_done d) (fun _ _ => rfl)
    (fun d f g => bind_assoc d f g)

/-- Puts one command to the engine. -/
def command (c : Command) : Dialogue Answer :=
  ask c done

end Dialogue

/-- An engine with states in `σ`: how it answers a command, and its state
    afterwards. The state may hold everything that was asked so far, so an
    answer may depend on it all. -/
abbrev Engine (σ : Type) := Command → σ → Answer × σ

/-- What a dialogue leads to. -/
structure Outcome (σ α : Type) where
  /-- The value that the dialogue ends with. -/
  value : α
  /-- The engine afterwards. -/
  engine : σ
  /-- The start lock afterwards. -/
  lock : StartLock
  /-- The commands that were put to the engine, in order. -/
  calls : List Command

/-- Carries out a dialogue. -/
def Dialogue.run {σ α : Type} (e : Engine σ) : Dialogue α → σ → StartLock → Outcome σ α
  | done value, s, lock => { value, engine := s, lock, calls := [] }
  | ask c next, s, lock =>
    let (answer, s) := e c s
    let o := (next answer).run e s lock
    { o with calls := c :: o.calls }
  | acquire name next, s, lock =>
    match lock.acquire? name with
    | some (g, lock) => (next (some g)).run e s lock
    | none => (next none).run e s lock
  | release g next, s, lock => next.run e s (lock.release g)

end ContainerJobs
