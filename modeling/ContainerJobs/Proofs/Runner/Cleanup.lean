import ContainerJobs.Proofs.Engine.Control
import ContainerJobs.Proofs.Runner.StartProtocol

/-!
# Cleanups

What a cleanup of a job puts to an engine, and what its answer is worth. With any
engine, it asks for nothing unless an inspection succeeds, names no container but
that of the job, and says that this one is gone only if the engine said so
(`Runner.CleanupProtocol`). An engine in memory that is up loses just this
container, and nothing more when the cleanup is repeated; one that is down keeps
everything (`Runner.cleanup_protocol`). The cancel of a single job is a cleanup
whose answer is dropped.
-/

namespace ContainerJobs

/-! ## Inspection -/

/-- What an answer to an inspection tells, in terms of the answer. -/
inductive Presence.IsToldBy : Presence → Answer → Prop
  | unreached (f : SpawnFailure) : IsToldBy .unavailable (.error f)
  | missing {reply : Reply} : reply.isNotFound = true → IsToldBy .missing (.ok reply)
  | failed {reply : Reply} : reply.isNotFound = false → reply.exitCode ≠ 0 →
      IsToldBy .unavailable (.ok reply)
  | found {reply : Reply} (state : ContainerState) : reply.exitCode = 0 →
      IsToldBy (.found state) (.ok reply)
  | unreadable {reply : Reply} : reply.exitCode = 0 → IsToldBy .unreadable (.ok reply)

theorem Presence.isToldBy_ofAnswer (a : Answer) : (ofAnswer a).IsToldBy a := by
  cases a with
  | error f => exact .unreached f
  | ok reply =>
    rw [ofAnswer, ofReply]
    split
    · next missing => exact .missing missing
    · next there =>
      split
      · next failed => exact .failed (by simpa using there) (by simpa [Reply.isSuccess] using failed)
      · next succeeded =>
        have code : reply.exitCode = 0 := by simpa [Reply.isSuccess] using succeeded
        split
        · exact .found _ code
        · exact .unreadable code

/-- A reply that tells of a missing container is none of a success. -/
theorem Reply.exitCode_ne_zero_of_isNotFound {reply : Reply} (h : reply.isNotFound = true) :
    reply.exitCode ≠ 0 := by
  simp only [isNotFound, isSuccess, Bool.and_eq_true, Bool.not_eq_true', beq_eq_false_iff_ne] at h
  exact h.1

namespace Runner

variable {σ : Type} {e : Engine σ} {r : Runner} {key : JobKey}

/-! ## With any engine -/

/-- What a cleanup of a job is careful about, in terms of its exchanges. They are an
    inspection and a removal, which may be missing. -/
structure CleanupProtocol (r : Runner) (key : JobKey) (x : List (Command × Answer))
    (gone : Bool) (inspected : Answer) (removal : List (Command × Answer)) : Prop where
  /-- The two parts come in this order. -/
  parts : x = (.inspectState (r.resourceName key), inspected) :: removal
  /-- A removal names the container of the job and no other. -/
  removes : removal.map (·.1) <+:
    [["stop", r.resourceName key], ["rm", "-f", r.resourceName key]]
  /-- There is a removal exactly if the inspection succeeded. -/
  removes_iff : removal ≠ [] ↔ ∃ reply, inspected = .ok reply ∧ reply.exitCode = 0
  /-- The container counts as gone exactly if the engine says that it is missing or
      removed. -/
  gone_iff : gone = true ↔ inspected.saysNotFound = true ∨
    (∃ a, removal = [(["stop", r.resourceName key], a)] ∧ a.saysNotFound = true) ∨
    ∃ a a', removal = [(["stop", r.resourceName key], a),
      (["rm", "-f", r.resourceName key], a')] ∧ a'.saysGone = true

/-- A cleanup that ends with the inspection. -/
theorem CleanupProtocol.of_inspected {inspected : Answer} {gone : Bool}
    (h : ∀ reply, inspected = .ok reply → reply.exitCode ≠ 0)
    (tells : inspected.saysNotFound = gone) :
    CleanupProtocol r key [(.inspectState (r.resourceName key), inspected)] gone inspected [] where
  parts := rfl
  removes := List.nil_prefix
  removes_iff := by simpa using h
  gone_iff := by simp [tells]

/-- A cleanup that goes on to a removal. -/
theorem CleanupProtocol.of_removal {reply : Reply} {gone : Bool}
    {removal : List (Command × Answer)} (h : reply.exitCode = 0)
    (course : RemovalCourse (r.resourceName key) removal gone) :
    CleanupProtocol r key ((.inspectState (r.resourceName key), .ok reply) :: removal)
      gone (.ok reply) removal where
  parts := rfl
  removes := course.commands.1
  removes_iff := by simp [course.commands.2, h]
  gone_iff := by
    have found : Answer.saysNotFound (.ok reply) = false := by
      simp [Answer.saysNotFound, Reply.isNotFound, Reply.isSuccess, h]
    simp [course.gone_iff, found]

/-- A cleanup in one step: what it does after the inspection. -/
theorem cleanup_eq_ask : r.cleanup key = .ask (.inspectState (r.resourceName key)) fun a =>
    match Presence.ofAnswer a with
    | .missing => return true
    | .unavailable => return false
    | .found _ | .unreadable => Dialogue.removeContainer (r.resourceName key) := rfl

theorem exists_cleanupProtocol (s : σ) (lock : StartLock) :
    ∃ inspected removal, CleanupProtocol r key ((r.cleanup key).exchanges e s lock)
      ((r.cleanup key).run e s lock).value inspected removal := by
  rw [cleanup_eq_ask, Dialogue.exchanges_ask, Dialogue.run_ask]
  generalize e (.inspectState (r.resourceName key)) s = answered
  obtain ⟨a, s'⟩ := answered
  have told := Presence.isToldBy_ofAnswer a
  have course := removal_course (e := e) (r.resourceName key) s' lock
  generalize Presence.ofAnswer a = presence at told
  simp only
  cases told with
  | unreached f => exact ⟨_, _, .of_inspected nofun rfl⟩
  | missing h =>
    have code := Reply.exitCode_ne_zero_of_isNotFound h
    exact ⟨_, _, .of_inspected (fun _ heq => Except.ok.inj heq ▸ code) h⟩
  | failed there h => exact ⟨_, _, .of_inspected (fun _ heq => Except.ok.inj heq ▸ h) there⟩
  | found state h => exact ⟨_, _, .of_removal h course⟩
  | unreadable h => exact ⟨_, _, .of_removal h course⟩

/-- The cancel of a single job is a cleanup without an answer. -/
theorem cancel_run (r : Runner) (key : JobKey) (s : σ) (lock : StartLock) :
    (r.cancel key.project (some key.trajectory)).run e s lock =
      { (r.cleanup key).run e s lock with value := () } := by
  change (r.cleanup key >>= fun _ => (pure () : Dialogue Unit)).run e s lock = _
  simp only [Dialogue.run_bind, Dialogue.run_pure, List.append_nil]

/-! ## With an engine in memory -/

variable {m : InMemory}

theorem cleanup_run_of_isDown (r : Runner) (key : JobKey) (down : m.isDown = true)
    (lock : StartLock) :
    (r.cleanup key).run InMemory.engine m lock =
      { value := false, engine := m, lock, calls := [.inspectState (r.resourceName key)] } := by
  rw [cleanup_eq_ask, Dialogue.run_ask, InMemory.engine_of_isDown down]
  simp only [Presence.ofAnswer, InMemory.ofReply_down, Dialogue.run_pure]

theorem cleanup_run_of_find?_eq_none (up : m.isDown = false)
    (h : m.store.find? (r.resourceName key) = none) (lock : StartLock) :
    (r.cleanup key).run InMemory.engine m lock =
      { value := true, engine := m, lock, calls := [.inspectState (r.resourceName key)] } := by
  obtain ⟨reply, answer, tells⟩ := InMemory.engine_inspectState_of_isUp up (r.resourceName key)
  rw [InMemory.presence_eq_missing_iff.2 h] at tells
  rw [cleanup_eq_ask, Dialogue.run_ask, answer]
  simp only [Presence.ofAnswer, tells, Dialogue.run_pure]

/-- An engine that is up loses what answers to the name of the container. -/
theorem cleanup_run_of_isUp (r : Runner) (key : JobKey) (up : m.isDown = false)
    (lock : StartLock) :
    ((r.cleanup key).run InMemory.engine m lock).value = true ∧
      ((r.cleanup key).run InMemory.engine m lock).engine =
        { m with store := m.store.erase (r.resourceName key) } := by
  cases found : m.store.find? (r.resourceName key) with
  | none =>
    rw [cleanup_run_of_find?_eq_none up found, ContainerStore.erase_of_find?_eq_none found]
    exact ⟨rfl, rfl⟩
  | some c =>
    obtain ⟨reply, answer, tells⟩ := InMemory.engine_inspectState_of_isUp up (r.resourceName key)
    have removed := InMemory.removeContainer_run_of_isUp up lock
      (key.head?_resourceName_ne_hyphen r.config.nameStem)
    rw [ContainerStore.presence, found, Option.elim_some, Container.presence] at tells
    rw [cleanup_eq_ask, Dialogue.run_ask, answer]
    simp only [Presence.ofAnswer, tells]
    -- A container that is there is removed, whether or not its state can be read.
    split at tells <;> exact removed

/-- A cleanup is careful and honest with any engine, and so is the cancel of a single
    job, which is a cleanup without an answer. An engine in memory whose containers have
    distinct names loses the container of the job and keeps the others as they are; then a
    second cleanup removes nothing. One that is down keeps everything, and the cleanup says
    that it failed. -/
theorem cleanup_protocol (r : Runner) (key : JobKey) :
    (∀ {σ : Type} (e : Engine σ) (s : σ) (lock : StartLock),
      let o := (r.cleanup key).run e s lock
      o.calls = ((r.cleanup key).exchanges e s lock).map (·.1) ∧
        (∃ inspected removal, CleanupProtocol r key ((r.cleanup key).exchanges e s lock) o.value
          inspected removal) ∧
        (r.cancel key.project (some key.trajectory)).run e s lock = { o with value := () }) ∧
    ∀ (e : InMemory) (lock : StartLock), e.IsBuilt → (e.store.containers.map (·.name)).Nodup →
      let o := (r.cleanup key).run InMemory.engine e lock
      (e.isDown = false → o.value = true ∧
        o.engine = { e with store := { e.store with
          containers := e.store.containers.filter (·.name ≠ r.resourceName key) } } ∧
        ∀ lock', (r.cleanup key).run InMemory.engine o.engine lock' =
          { value := true, engine := o.engine, lock := lock',
            calls := [.inspectState (r.resourceName key)] }) ∧
      (e.isDown = true → o.value = false ∧ o.engine = e) := by
  refine ⟨fun e s lock => ⟨Dialogue.calls_eq_map_exchanges _ s lock,
    exists_cleanupProtocol s lock, cancel_run r key s lock⟩, ?_⟩
  intro e lock built nodup o
  have distinct : e.store.NamesDistinct := ⟨built.numbered, nodup⟩
  have hyphen : '-' ∈ (r.resourceName key).toList :=
    key.hyphen_mem_resourceName r.config.nameStem
  refine ⟨fun up => ?_, fun down => ?_⟩
  · obtain ⟨gone, erased⟩ := cleanup_run_of_isUp r key up lock
    refine ⟨gone, erased.trans (by rw [distinct.erase_name hyphen]), fun lock' => ?_⟩
    have missing : o.engine.store.find? (r.resourceName key) = none := by
      rw [erased]
      exact distinct.find?_erase hyphen
    have stillUp : o.engine.isDown = false := by
      rw [erased]
      exact up
    exact cleanup_run_of_find?_eq_none stillUp missing lock'
  · have same := cleanup_run_of_isDown r key down lock
    exact ⟨congrArg Outcome.value same, congrArg Outcome.engine same⟩

/-- An engine with an ended container of a job, and one that belongs to no job. -/
def sharedEngine : InMemory where
  store := (ContainerStore.addJob {} (sample.resourceName ⟨"lens", "run-1"⟩) ⟨"lens", "run-1"⟩
    (.exited 0)).addUnmanaged "postgres"

theorem cleanup_protocol_sharedEngine :
    sharedEngine.IsBuilt ∧ (sharedEngine.store.containers.map (·.name)).Nodup ∧
      sharedEngine.isDown = false ∧
      let o := (sample.cleanup ⟨"lens", "run-1"⟩).run InMemory.engine sharedEngine .always
      o.value = true ∧ o.engine.store.containers.map (·.name) = ["postgres"] := by
  have built : sharedEngine.IsBuilt :=
    (InMemory.IsBuilt.empty.addJob _ _ _).control (.addUnmanaged "postgres")
  have names : sharedEngine.store.containers.map (·.name) =
      [sample.resourceName ⟨"lens", "run-1"⟩, "postgres"] := rfl
  -- The name of a job has a hyphen.
  have differ : sample.resourceName ⟨"lens", "run-1"⟩ ≠ "postgres" := fun same => by
    have hyphen := JobKey.hyphen_mem_resourceName ⟨"lens", "run-1"⟩ sample.config.nameStem
    rw [← Runner.resourceName, same] at hyphen
    exact absurd hyphen (by decide)
  have nodup : (sharedEngine.store.containers.map (·.name)).Nodup := by
    rw [names]
    simpa using differ
  obtain ⟨gone, erased, -⟩ :=
    ((cleanup_protocol sample ⟨"lens", "run-1"⟩).2 sharedEngine .always built nodup).1 rfl
  refine ⟨built, nodup, rfl, gone, ?_⟩
  rw [erased]
  have kept : (sharedEngine.store.containers.map (·.name)).filter
      (· ≠ sample.resourceName ⟨"lens", "run-1"⟩) = ["postgres"] := by
    rw [names]
    simp [differ.symm]
  rw [← kept, List.filter_map]
  rfl

end Runner

end ContainerJobs
