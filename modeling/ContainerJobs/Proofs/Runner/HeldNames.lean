import ContainerJobs.Engine.Scripted
import ContainerJobs.Proofs.Engine.Dialogue
import ContainerJobs.Proofs.Launch.Arguments
import ContainerJobs.Runner.Start
import Mathlib.Data.List.Nodup

/-!
# Names that are held

A name is held by an exclusive lock exactly while one guard for it is out, however
names are asked for and guards are dropped (`GuardedLock.isBalanced_replay`). A start
asks for one name and gives the guard back, whatever the engine answers and whatever
comes of it: what it does in between leaves locks alone (`Dialogue.IsLockFree`), so the
lock is afterwards what it was before.
-/

namespace ContainerJobs

/-! ## Locks with their guards -/

/-- What is done with a lock. -/
inductive LockStep where
  /-- A name is asked for. -/
  | acquire (name : String)
  /-- The guard for a name, if there is one, is dropped. -/
  | release (name : String)

namespace GuardedLock

/-- The lock after a step. -/
def apply (l : GuardedLock) : LockStep → GuardedLock
  | .acquire name => (l.acquire name).2
  | .release name => (l.release name).2

/-- An exclusive lock that was new before some steps. -/
def replay (steps : List LockStep) : GuardedLock :=
  steps.foldl apply { lock := .fresh }

/-- An exclusive lock with the names that are taken, and the guards for some names. -/
def holding (taken names : List String) : GuardedLock where
  lock := .exclusive taken
  guards := names.map fun name => { name, held := true }

/-- The names that are taken are those of the guards, and none has two guards. -/
inductive IsBalanced : GuardedLock → Prop
  | intro {taken names : List String} (perm : taken.Perm names) (nodup : names.Nodup) :
      IsBalanced (holding taken names)

variable {taken names : List String} {name : String}

@[simp] theorem isHeld_holding :
    (holding taken names).lock.isHeld name = true ↔ name ∈ taken := by
  simp [holding, StartLock.isHeld]

theorem countP_holding (name : String) :
    (holding taken names).guards.countP (·.name == name) = names.count name := by
  rw [holding, List.countP_map]
  rfl

theorem acquire_holding_of_mem (h : name ∈ taken) :
    (holding taken names).acquire name = (none, holding taken names) := by
  have held : taken.contains name = true := List.contains_iff_mem.2 h
  simp only [acquire, holding, StartLock.acquire?, held, if_true]

theorem acquire_holding_of_not_mem (h : name ∉ taken) : (holding taken names).acquire name =
    (some { name, held := true }, holding (name :: taken) (names ++ [name])) := by
  have free : taken.contains name = false := by simpa using h
  simp only [acquire, holding, StartLock.acquire?, free, Bool.false_eq_true, if_false,
    List.map_append, List.map_singleton]

theorem find?_holding (taken names : List String) (name : String) :
    (holding taken names).guards.find? (·.name == name) =
      if name ∈ names then some { name, held := true } else none := by
  induction names with
  | nil => rfl
  | cons other names ih =>
    simp only [holding, List.map_cons, List.find?_cons] at ih ⊢
    by_cases same : other = name
    · simp [same]
    · simp [beq_eq_false_iff_ne.2 same, ih, Ne.symm same]

theorem guards_holding_erase (taken names : List String) (name : String) :
    (holding taken (names.erase name)).guards =
      (holding taken names).guards.erase { name, held := true } :=
  List.map_erase (f := fun name => ({ name, held := true } : Guard))
    (fun _ _ heq => (Guard.mk.inj heq).1) names

theorem release_holding_of_mem (h : name ∈ names) : (holding taken names).release name =
    (true, holding (taken.erase name) (names.erase name)) := by
  have guards := guards_holding_erase taken names name
  rw [release, find?_holding, if_pos h]
  simp only [holding, StartLock.release, if_true] at guards ⊢
  rw [guards]

theorem release_holding_of_not_mem (h : name ∉ names) :
    (holding taken names).release name = (false, holding taken names) := by
  rw [release, find?_holding, if_neg h]

/-- A step keeps the guards in line with the names. -/
theorem IsBalanced.apply {l : GuardedLock} (h : l.IsBalanced) (step : LockStep) :
    (l.apply step).IsBalanced := by
  obtain @⟨taken, names, perm, nodup⟩ := h
  cases step with
  | acquire name =>
    rw [GuardedLock.apply]
    by_cases hm : name ∈ taken
    · rw [acquire_holding_of_mem hm]
      exact ⟨perm, nodup⟩
    · rw [acquire_holding_of_not_mem hm]
      refine ⟨(perm.cons name).trans (List.perm_append_singleton name names).symm, ?_⟩
      simpa using nodup.concat (perm.mem_iff.not.1 hm)
  | release name =>
    rw [GuardedLock.apply]
    by_cases hm : name ∈ names
    · rw [release_holding_of_mem hm]
      exact ⟨perm.erase name, nodup.erase name⟩
    · rw [release_holding_of_not_mem hm]
      exact ⟨perm, nodup⟩

theorem isBalanced_replay (steps : List LockStep) : (replay steps).IsBalanced := by
  have run (l : GuardedLock) (h : l.IsBalanced) : (steps.foldl GuardedLock.apply l).IsBalanced := by
    induction steps generalizing l with
    | nil => exact h
    | cons step steps ih => exact ih _ (h.apply step)
  exact run (holding [] []) ⟨.nil, List.nodup_nil⟩

/-- What the guards that are out say about a lock. -/
structure IsGuarded (l : GuardedLock) : Prop where
  /-- A name is held exactly while one guard for it is out. -/
  held_iff : ∀ name, l.lock.isHeld name = true ↔ l.guards.countP (·.name == name) = 1
  /-- No name has two guards. -/
  single : ∀ name, l.guards.countP (·.name == name) ≤ 1
  /-- A name is granted exactly if it is not held. -/
  granted_iff : ∀ name, (l.acquire name).1.isSome = true ↔ l.lock.isHeld name = false
  /-- What is granted is one more guard, and it is for this name. -/
  granted : ∀ name g, (l.acquire name).1 = some g →
    g.name = name ∧ (l.acquire name).2.guards = l.guards ++ [g]
  /-- A guard that is dropped gives back its own name and no other. -/
  dropped : ∀ g ∈ l.guards, (l.release g.name).1 = true ∧
    (l.release g.name).2.guards = l.guards.erase g ∧
    ∀ name, (l.release g.name).2.lock.isHeld name = true ↔
      l.lock.isHeld name = true ∧ name ≠ g.name

theorem IsBalanced.isGuarded {l : GuardedLock} (h : l.IsBalanced) : l.IsGuarded := by
  obtain @⟨taken, names, perm, nodup⟩ := h
  have once := List.nodup_iff_count_le_one.1 nodup
  refine ⟨fun name => ?_, fun name => ?_, fun name => ?_, fun name g hg => ?_, fun g hg => ?_⟩
  · rw [isHeld_holding, countP_holding, perm.mem_iff]
    exact ⟨List.count_eq_one_of_mem nodup, fun one => List.count_pos_iff.1 (by omega)⟩
  · rw [countP_holding]
    exact once name
  · rw [← Bool.not_eq_true, isHeld_holding]
    by_cases hm : name ∈ taken
    · simp [acquire_holding_of_mem hm, hm]
    · simp [acquire_holding_of_not_mem hm, hm]
  · by_cases hm : name ∈ taken
    · simp [acquire_holding_of_mem hm] at hg
    · rw [acquire_holding_of_not_mem hm] at hg ⊢
      obtain rfl := Option.some.inj hg
      exact ⟨rfl, by simp [holding]⟩
  · obtain ⟨name, hname, rfl⟩ := List.mem_map.1 hg
    simp only [release_holding_of_mem hname, isHeld_holding]
    refine ⟨trivial, guards_holding_erase taken names name, fun other => ?_⟩
    rw [(perm.nodup_iff.2 nodup).mem_erase_iff, and_comm]

end GuardedLock

/-! ## Starts -/

namespace Dialogue

variable {σ α β : Type} {e : Engine σ}

/-- The dialogue asks for no name and gives none back. -/
def IsLockFree : Dialogue α → Prop
  | done _ => True
  | ask _ next => ∀ a, (next a).IsLockFree
  | acquire _ _ => False
  | release _ _ => False

theorem isLockFree_pure (a : α) : (pure a : Dialogue α).IsLockFree := trivial

theorem IsLockFree.command_bind {c : Command} {f : Answer → Dialogue α}
    (hf : ∀ a, (f a).IsLockFree) : (command c >>= f).IsLockFree := hf

theorem IsLockFree.bind {d : Dialogue α} {f : α → Dialogue β} (h : d.IsLockFree)
    (hf : ∀ a, (f a).IsLockFree) : (d >>= f).IsLockFree := by
  change (d.bind f).IsLockFree
  induction d with
  | done a => exact hf a
  | ask c next ih => exact fun a => ih a (h a)
  | acquire name next => exact h.elim
  | release g next => exact h.elim

/-- Such a dialogue leaves the lock as it is. -/
theorem IsLockFree.run {d : Dialogue α} (h : d.IsLockFree) (s : σ) (lock : StartLock) :
    (d.run e s lock).lock = lock := by
  induction d generalizing s with
  | done a => rfl
  | ask c next ih => exact ih _ (h _) _
  | acquire name next => exact h.elim
  | release g next => exact h.elim

theorem isLockFree_removeContainer (name : String) : (removeContainer name).IsLockFree := by
  refine .command_bind fun a => ?_
  cases a with
  | error f => exact isLockFree_pure _
  | ok reply =>
    simp only
    split
    · exact isLockFree_pure _
    · refine .command_bind fun a => ?_
      cases a <;> exact isLockFree_pure _

end Dialogue

theorem StartLock.acquire?_eq_none_iff {lock : StartLock} {name : String} :
    lock.acquire? name = none ↔ lock.isHeld name = true := by
  cases lock with
  | always => simp [acquire?, isHeld]
  | exclusive taken =>
    rw [acquire?, isHeld]
    cases taken.contains name <;> simp

/-- A guard that is given back leaves the lock as it was. -/
theorem StartLock.release_of_acquire? {lock lock' : StartLock} {name : String} {g : Guard}
    (h : lock.acquire? name = some (g, lock')) : lock'.release g = lock := by
  cases lock with
  | always =>
    cases h
    rfl
  | exclusive taken =>
    rw [acquire?] at h
    split at h
    · cases h
    · cases h
      simp [release]

namespace Runner

variable {σ : Type} {e : Engine σ} {r : Runner} {q : StartRequest} {lock : StartLock}

theorem isLockFree_launch : (r.launch q).IsLockFree := by
  rw [launch]
  split
  · exact Dialogue.isLockFree_pure _
  · refine .command_bind fun a => ?_
    cases a <;> exact Dialogue.isLockFree_pure _

theorem isLockFree_startUnlocked : (r.startUnlocked q).IsLockFree := by
  refine .command_bind fun a => ?_
  cases a with
  | error f => exact Dialogue.isLockFree_pure _
  | ok reply =>
    simp only
    split
    · exact isLockFree_launch
    · exact Dialogue.isLockFree_pure _
    · refine (Dialogue.isLockFree_removeContainer _).bind fun gone => ?_
      split
      · exact isLockFree_launch
      · exact Dialogue.isLockFree_pure _

/-- While its name is held, a start does nothing. -/
theorem start_run_of_isHeld (held : lock.isHeld (r.resourceName q.key) = true) (s : σ) :
    (r.start q).run e s lock = { value := .ok false, engine := s, lock, calls := [] } := by
  rw [start, Dialogue.run, StartLock.acquire?_eq_none_iff.2 held]
  rfl

/-- A start whose name is free does what it does without regard to the lock, and gives the
    name back. -/
theorem start_run_of_free (free : lock.isHeld (r.resourceName q.key) = false) (s : σ) :
    ∃ lock', (r.start q).run e s lock = { (r.startUnlocked q).run e s lock' with lock } := by
  obtain ⟨g, lock', granted⟩ := StartLock.exists_acquire? free
  refine ⟨lock', ?_⟩
  have restored : ((r.startUnlocked q).run e s lock').lock.release g = lock := by
    rw [isLockFree_startUnlocked.run]
    exact StartLock.release_of_acquire? granted
  rw [start, Dialogue.run, granted]
  simp only [Dialogue.run_bind, Dialogue.run_release, Dialogue.run_pure, List.append_nil, restored]

/-- Whatever comes of a start, it leaves the lock as it was. -/
theorem start_run_lock (s : σ) : ((r.start q).run e s lock).lock = lock := by
  cases held : lock.isHeld (r.resourceName q.key) with
  | true => rw [start_run_of_isHeld held]
  | false =>
    obtain ⟨lock', same⟩ := start_run_of_free held s
    rw [same]

end Runner

/-- Names are held by their guards, however names are asked for and guards are dropped. A
    start whose name is held does nothing, and any start leaves the lock as it was, with any
    engine and whatever comes of it. -/
theorem names_held_by_guards :
    (∀ steps : List LockStep, (GuardedLock.replay steps).IsGuarded) ∧
    ∀ (r : Runner) (q : StartRequest) {σ : Type} (e : Engine σ) (s : σ) (lock : StartLock),
      let o := (r.start q).run e s lock
      (lock.isHeld (r.resourceName q.key) = true →
        o.value = .ok false ∧ o.calls = [] ∧ o.engine = s) ∧
      o.lock = lock := by
  refine ⟨fun steps => (GuardedLock.isBalanced_replay steps).isGuarded, ?_⟩
  intro r q σ e s lock
  refine ⟨fun held => ?_, Runner.start_run_lock s⟩
  rw [Runner.start_run_of_isHeld held]
  exact ⟨rfl, rfl, rfl⟩

/-- Two names with their guards, one of which is dropped, and a start whose name is held. -/
theorem names_held_by_guards_sample :
    let l := GuardedLock.replay [.acquire "lens", .acquire "prism", .acquire "lens"]
    let name := Runner.sample.resourceName ⟨"lens", "run-1"⟩
    let o := (Runner.sample.start (Runner.sampleRequest ⟨"lens", "run-1"⟩)).run Script.engine []
      (.exclusive [name])
    { name := "lens", held := true } ∈ l.guards ∧
      (l.release "lens").2.lock.isHeld "lens" = false ∧
      (l.release "lens").2.lock.isHeld "prism" = true ∧
      (StartLock.exclusive [name]).isHeld name = true ∧ o.value = .ok false ∧
      o.calls = [] ∧ o.lock = .exclusive [name] := by
  intro l name o
  have guard : { name := "lens", held := true } ∈ l.guards := by decide
  have held : (StartLock.exclusive [name]).isHeld name = true := by simp [StartLock.isHeld]
  obtain ⟨-, -, after⟩ := (names_held_by_guards.1 _).dropped _ guard
  obtain ⟨refused, lock⟩ := names_held_by_guards.2 Runner.sample
    (Runner.sampleRequest ⟨"lens", "run-1"⟩) Script.engine [] (.exclusive [name])
  obtain ⟨value, calls, -⟩ := refused held
  refine ⟨guard, ?_, ?_, held, value, calls, lock⟩
  · rw [← Bool.not_eq_true, after]
    exact fun h => h.2 rfl
  · exact (after "prism").2 ⟨by decide, by decide⟩

end ContainerJobs
