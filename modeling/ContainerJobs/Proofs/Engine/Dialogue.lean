import ContainerJobs.Engine.Dialogue

/-!
# Dialogues carried out

What the run of a dialogue is made of. A run of one dialogue after another is the
runs of both (`run_bind`), so operations can be followed one at a time. The
*exchanges* of a run are its commands with the answers that they got
(`Dialogue.exchanges`); what a runner does in reply to an answer is said about
them. What all commands keep that a dialogue may ask, its runs keep (`Asks.run`).
-/

namespace ContainerJobs

/-- A name that is not taken is granted. -/
theorem StartLock.exists_acquire? {lock : StartLock} {name : String}
    (free : lock.isHeld name = false) : ∃ g lock', lock.acquire? name = some (g, lock') := by
  cases lock with
  | always => exact ⟨_, _, rfl⟩
  | exclusive taken =>
    simp only [isHeld] at free
    exact ⟨_, _, by rw [acquire?, free]; rfl⟩

namespace Dialogue

variable {σ α β : Type} {e : Engine σ}

@[simp] theorem command_bind (c : Command) (f : Answer → Dialogue α) :
    command c >>= f = ask c f := rfl

@[simp] theorem run_pure (a : α) (s : σ) (lock : StartLock) :
    (pure a : Dialogue α).run e s lock = { value := a, engine := s, lock, calls := [] } := rfl

@[simp] theorem run_ask (c : Command) (next : Answer → Dialogue α) (s : σ) (lock : StartLock) :
    (ask c next).run e s lock =
      { (next (e c s).1).run e (e c s).2 lock with
        calls := c :: ((next (e c s).1).run e (e c s).2 lock).calls } := rfl

@[simp] theorem run_release (g : Guard) (next : Dialogue α) (s : σ) (lock : StartLock) :
    (release g next).run e s lock = next.run e s (lock.release g) := rfl

/-- The run of one dialogue after another: the second one starts where the first
    one ended. -/
theorem run_bind (d : Dialogue α) (f : α → Dialogue β) (s : σ) (lock : StartLock) :
    (d >>= f).run e s lock =
      let o := d.run e s lock
      let o' := (f o.value).run e o.engine o.lock
      { o' with calls := o.calls ++ o'.calls } := by
  change (d.bind f).run e s lock = _
  induction d generalizing s lock with
  | done a => rfl
  | ask c next ih => simp [bind, ih]
  | acquire name next ih =>
    simp only [bind, run]
    cases lock.acquire? name with
    | none => exact ih none s lock
    | some p => exact ih (some p.1) s p.2
  | release g next ih => exact ih s (lock.release g)

/-! ## Exchanges -/

/-- The commands of a run with their answers, in order. -/
def exchanges (e : Engine σ) : Dialogue α → σ → StartLock → List (Command × Answer)
  | done _, _, _ => []
  | ask c next, s, lock => (c, (e c s).1) :: (next (e c s).1).exchanges e (e c s).2 lock
  | acquire name next, s, lock =>
    match lock.acquire? name with
    | some (g, lock) => (next (some g)).exchanges e s lock
    | none => (next none).exchanges e s lock
  | release g next, s, lock => next.exchanges e s (lock.release g)

@[simp] theorem exchanges_pure (a : α) (s : σ) (lock : StartLock) :
    (pure a : Dialogue α).exchanges e s lock = [] := rfl

@[simp] theorem exchanges_ask (c : Command) (next : Answer → Dialogue α) (s : σ)
    (lock : StartLock) :
    (ask c next).exchanges e s lock =
      (c, (e c s).1) :: (next (e c s).1).exchanges e (e c s).2 lock := rfl

@[simp] theorem exchanges_release (g : Guard) (next : Dialogue α) (s : σ) (lock : StartLock) :
    (release g next).exchanges e s lock = next.exchanges e s (lock.release g) := rfl

/-- The exchanges of a run are about its calls. -/
theorem calls_eq_map_exchanges (d : Dialogue α) (s : σ) (lock : StartLock) :
    (d.run e s lock).calls = (d.exchanges e s lock).map (·.1) := by
  induction d generalizing s lock with
  | done a => rfl
  | ask c next ih => simp [ih]
  | acquire name next ih =>
    simp only [run, exchanges]
    cases lock.acquire? name with
    | none => exact ih none s lock
    | some p => exact ih (some p.1) s p.2
  | release g next ih => exact ih s (lock.release g)

theorem exchanges_bind (d : Dialogue α) (f : α → Dialogue β) (s : σ) (lock : StartLock) :
    (d >>= f).exchanges e s lock = d.exchanges e s lock ++
      (f (d.run e s lock).value).exchanges e (d.run e s lock).engine (d.run e s lock).lock := by
  change (d.bind f).exchanges e s lock = _
  induction d generalizing s lock with
  | done a => rfl
  | ask c next ih => simp [bind, ih]
  | acquire name next ih =>
    simp only [bind, run, exchanges]
    cases lock.acquire? name with
    | none => exact ih none s lock
    | some p => exact ih (some p.1) s p.2
  | release g next ih => exact ih s (lock.release g)

/-! ## What a dialogue may ask -/

/-- Whatever the answers are, the dialogue only asks what `P` allows. -/
def Asks (P : Command → Prop) : Dialogue α → Prop
  | done _ => True
  | ask c next => P c ∧ ∀ a, (next a).Asks P
  | acquire _ next => ∀ g, (next g).Asks P
  | release _ next => next.Asks P

variable {P : Command → Prop}

theorem Asks.command_bind {c : Command} {f : Answer → Dialogue α} (hc : P c)
    (hf : ∀ a, (f a).Asks P) : (command c >>= f).Asks P :=
  ⟨hc, hf⟩

theorem Asks.bind {d : Dialogue α} {f : α → Dialogue β} (h : d.Asks P)
    (hf : ∀ a, (f a).Asks P) : (d >>= f).Asks P := by
  change (d.bind f).Asks P
  induction d with
  | done a => exact hf a
  | ask c next ih => exact ⟨h.1, fun a => ih a (h.2 a)⟩
  | acquire name next ih => exact fun g => ih g (h g)
  | release g next ih => exact ih h

theorem asks_true (d : Dialogue α) : d.Asks fun _ => True := by
  induction d with
  | done a => trivial
  | ask c next ih => exact ⟨trivial, ih⟩
  | acquire name next ih => exact ih
  | release g next ih => exact ih

/-- What every command that a dialogue may ask keeps, the dialogue keeps. -/
theorem Asks.run {d : Dialogue α} (h : d.Asks P) {I : σ → Prop}
    (step : ∀ c s, P c → I s → I (e c s).2) {s : σ} (hs : I s) (lock : StartLock) :
    I (d.run e s lock).engine := by
  induction d generalizing s lock with
  | done a => exact hs
  | ask c next ih => exact ih _ (h.2 _) (step c s h.1 hs) lock
  | acquire name next ih =>
    rw [Dialogue.run]
    cases lock.acquire? name with
    | none => exact ih none (h none) hs lock
    | some p => exact ih (some p.1) (h _) hs p.2
  | release g next ih => exact ih h hs (lock.release g)

/-- A change of the engine that makes no difference to any command that a dialogue
    may ask makes none to the dialogue. -/
theorem Asks.run_map {d : Dialogue α} (h : d.Asks P) {g : σ → σ}
    (step : ∀ c s, P c → e c (g s) = ((e c s).1, g (e c s).2)) (s : σ) (lock : StartLock) :
    d.run e (g s) lock = { d.run e s lock with engine := g (d.run e s lock).engine } := by
  induction d generalizing s lock with
  | done a => rfl
  | ask c next ih => simp only [run_ask, step c s h.1, ih _ (h.2 _)]
  | acquire name next ih =>
    simp only [Dialogue.run]
    cases lock.acquire? name with
    | none => exact ih none (h none) s lock
    | some p => exact ih (some p.1) (h _) s p.2
  | release g next ih => exact ih h s (lock.release g)

end Dialogue

end ContainerJobs
