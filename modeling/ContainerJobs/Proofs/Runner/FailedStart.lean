import ContainerJobs.Proofs.Container.State
import ContainerJobs.Proofs.Engine.Effect
import ContainerJobs.Proofs.Engine.Starting

/-!
# Starts that fail

A start looks for a container of the job's name first, and removes one that is
over or never ran. Only then it makes a plan for the new one, and where there is
no plan, for a function that is not valid or a task that is not known, the start
fails. What it leaves is the engine without the old container
(`InMemory.start_run_of_error`): nothing else is lost, but a start that fails is not
one that did nothing (`InMemory.containers_start_invalidRequest`).
-/

namespace ContainerJobs

/-- A container that may be replaced is over, or did not begin, or cannot be read. -/
theorem Presence.hindrance_eq_removable_iff {p : Presence} : p.hindrance = .removable ↔
    p = .unreadable ∨
      ∃ state, p = .found state ∧ state.jobStatus ∈ [.completed, .failed, .pending] := by
  cases p with
  | found state =>
    -- A canceled job could be replaced too, but no state tells of one.
    have not_canceled := state.jobStatus_ne_canceled
    simp only [hindrance]
    cases status : state.jobStatus <;> simp_all
  | _ => simp [hindrance]

theorem ContainerStore.containers_erase_eq_iff {s : ContainerStore} {address : String} :
    (s.erase address).containers = s.containers ↔ s.find? address = none := by
  rw [erase, find?, List.eraseP_eq_self_iff, List.find?_eq_none]

namespace InMemory

variable {e : InMemory} {r : Runner} {q : StartRequest} {err : JobError} {lock : StartLock}

/-! ## Starts without a plan -/

theorem launch_run_of_plan_eq_error (hp : r.plan q = .error err) (e : InMemory)
    (lock : StartLock) : (r.launch q).run engine e lock =
      { value := .error err, engine := e, lock, calls := [] } := by
  simp only [Runner.launch, hp, Dialogue.run_pure]

/-- Without a plan, a start on an engine that is up fails unless the container that
    is there lasts, and then it has removed the one that is there. -/
theorem startUnlocked_run_of_plan_eq_error (up : e.isDown = false)
    (hp : r.plan q = .error err) (lock : StartLock) :
    let o := (r.startUnlocked q).run engine e lock
    let hindrance := (e.store.presence (r.resourceName q.key)).hindrance
    (hindrance = .lasting ∧ o.value = .ok false) ∨
      (hindrance ≠ .lasting ∧ o.value = .error err ∧
        o.engine = { e with store := e.store.erase (r.resourceName q.key) }) := by
  obtain ⟨reply, answer, tells⟩ := engine_inspectState_of_isUp up (r.resourceName q.key)
  simp only [Runner.startUnlocked, Dialogue.command_bind, Dialogue.run_ask, answer, tells]
  cases hh : (e.store.presence (r.resourceName q.key)).hindrance with
  | nothing =>
    rw [ContainerStore.erase_of_find?_eq_none
      (ContainerStore.hindrance_presence_eq_nothing_iff.1 hh)]
    simp [launch_run_of_plan_eq_error hp]
  | lasting => exact .inl ⟨rfl, rfl⟩
  | removable =>
    obtain ⟨gone, erased⟩ := removeContainer_run_of_isUp up lock
      (q.key.head?_resourceName_ne_hyphen r.config.nameStem)
    simp [Dialogue.run_bind, Runner.resourceName, gone, erased, launch_run_of_plan_eq_error hp]

/-! ## Where errors come from -/

theorem launch_run_of_plan_eq_ok {p : LaunchPlan} (hp : r.plan q = .ok p) (e : InMemory)
    (lock : StartLock) : ∃ launched, ((r.launch q).run engine e lock).value = .ok launched := by
  refine ⟨(e.reply p.args).1.isSuccess, ?_⟩
  simp only [Runner.launch, hp, Dialogue.command_bind, Dialogue.run_ask]
  rfl

/-- With a plan, a start does not fail, since the engine can always be reached. -/
theorem startUnlocked_run_of_plan_eq_ok {p : LaunchPlan} (hp : r.plan q = .ok p)
    (e : InMemory) (lock : StartLock) :
    ∃ started, ((r.startUnlocked q).run engine e lock).value = .ok started := by
  obtain ⟨reply, answer, -⟩ := engine_inspectState_cases e (r.resourceName q.key)
  simp only [Runner.startUnlocked, Dialogue.command_bind, Dialogue.run_ask, answer]
  cases (Presence.ofReply reply).hindrance with
  | nothing => exact launch_run_of_plan_eq_ok hp e lock
  | lasting => exact ⟨false, rfl⟩
  | removable =>
    simp only [Dialogue.run_bind]
    split
    · exact launch_run_of_plan_eq_ok hp _ _
    · exact ⟨false, rfl⟩

/-- On an engine that is down, a start does not fail either. -/
theorem startUnlocked_run_of_isDown (isDown : e.isDown = true) (lock : StartLock) :
    ((r.startUnlocked q).run engine e lock).value = .ok false := by
  simp only [Runner.startUnlocked, Dialogue.command_bind, Dialogue.run_ask,
    engine_of_isDown isDown, ofReply_down, Presence.hindrance, Dialogue.run_pure]

/-! ## Failed starts -/

variable (failed : ((r.startUnlocked q).run engine e lock).value = .error err)

include failed

theorem isUp_of_startUnlocked_eq_error : e.isDown = false := by
  cases isDown : e.isDown with
  | false => rfl
  | true => cases failed.symm.trans (startUnlocked_run_of_isDown isDown lock)

theorem plan_of_startUnlocked_eq_error : r.plan q = .error err := by
  cases hp : r.plan q with
  | ok p =>
    obtain ⟨started, ok⟩ := startUnlocked_run_of_plan_eq_ok hp e lock
    cases failed.symm.trans ok
  | error err' =>
    obtain ⟨-, ok⟩ | ⟨-, error, -⟩ :=
      startUnlocked_run_of_plan_eq_error (isUp_of_startUnlocked_eq_error failed) hp lock
    · cases failed.symm.trans ok
    · rw [Except.error.inj (error.symm.trans failed)]

/-- What a start that fails has removed could be replaced. -/
theorem startUnlocked_run_of_eq_error :
    ((r.startUnlocked q).run engine e lock).engine =
        { e with store := e.store.erase (r.resourceName q.key) } ∧
      ∀ c, e.store.find? (r.resourceName q.key) = some c → c.presence.hindrance = .removable := by
  obtain ⟨-, ok⟩ | ⟨replaceable, -, erased⟩ :=
    startUnlocked_run_of_plan_eq_error (isUp_of_startUnlocked_eq_error failed)
      (plan_of_startUnlocked_eq_error failed) lock
  · cases failed.symm.trans ok
  · refine ⟨erased, fun c found => ?_⟩
    have nothing : (e.store.presence (r.resourceName q.key)).hindrance = .nothing ↔
        e.store.find? (r.resourceName q.key) = none :=
      ContainerStore.hindrance_presence_eq_nothing_iff
    rw [ContainerStore.presence, found, Option.elim_some] at replaceable nothing
    cases hh : c.presence.hindrance with
    | removable => rfl
    | lasting => exact absurd hh replaceable
    | nothing => cases nothing.1 hh

omit failed

/-- What a start that fails does to an engine. It has no plan for the container, and
    has removed the one that answered to the name, if there was one; that one was
    over, or did not begin, or could not be read. So it leaves the containers as
    they were exactly if none answered to the name. -/
theorem start_run_of_error (failed : ((r.start q).run engine e lock).value = .error err) :
    let name := r.resourceName q.key
    let after := ((r.start q).run engine e lock).engine
    r.plan q = .error err ∧ after = { e with store := e.store.erase name } ∧
      (∀ c, e.store.find? name = some c → c.presence = .unreadable ∨
        ∃ state, c.presence = .found state ∧
          state.jobStatus ∈ [.completed, .failed, .pending]) ∧
      (after.store.containers = e.store.containers ↔ e.store.find? name = none) := by
  intro name after
  have free : lock.isHeld name = false := by
    cases held : lock.isHeld name with
    | false => rfl
    | true => cases failed.symm.trans (start_run_of_isHeld held e).1
  obtain ⟨lock', value, same⟩ := start_run_of_free free e
  have unlocked := value.symm.trans failed
  obtain ⟨erased, replaced⟩ := startUnlocked_run_of_eq_error unlocked
  have effect : after = { e with store := e.store.erase name } := same.trans erased
  refine ⟨plan_of_startUnlocked_eq_error unlocked, effect, fun c found => ?_, ?_⟩
  · exact Presence.hindrance_eq_removable_iff.1 (replaced c found)
  · rw [effect]
    exact ContainerStore.containers_erase_eq_iff

/-! ## An ended job -/

/-- An engine with an ended container of a job. -/
def endedEngine : InMemory where
  store := ContainerStore.addJob {} (Runner.sample.resourceName ⟨"lens", "run-1"⟩)
    ⟨"lens", "run-1"⟩ (.exited 0)

/-- A request to start the job with a function whose name is not valid. -/
def invalidRequest : StartRequest where
  key := ⟨"lens", "run-1"⟩
  function := { module := "worker.jobs", name := "run;reboot" }

theorem plan_invalidRequest : Runner.sample.plan invalidRequest =
    .error (.function ⟨invalidRequest.function.reference, .badName⟩) := rfl

theorem find?_endedEngine : ∃ c,
    endedEngine.store.find? (Runner.sample.resourceName invalidRequest.key) = some c ∧
      c.presence.hindrance = .removable := by
  refine ⟨_, List.find?_cons_of_pos ?_, ?_⟩
  · simp [Container.answersTo, invalidRequest]
  · decide +kernel

theorem start_run_invalidRequest :
    let name := Runner.sample.resourceName invalidRequest.key
    let o := (Runner.sample.start invalidRequest).run engine endedEngine .fresh
    o.value = .error (.function ⟨invalidRequest.function.reference, .badName⟩) ∧
      o.engine = { endedEngine with store := endedEngine.store.erase name } := by
  obtain ⟨c, found, removable⟩ := find?_endedEngine
  obtain ⟨lock', value, same⟩ := start_run_of_free (r := Runner.sample) (q := invalidRequest)
    (show StartLock.fresh.isHeld _ = false from rfl) endedEngine
  obtain ⟨lasting, -⟩ | ⟨-, error, erased⟩ := startUnlocked_run_of_plan_eq_error
    (e := endedEngine) rfl plan_invalidRequest lock'
  · rw [ContainerStore.presence, found, Option.elim_some, removable] at lasting
    cases lasting
  · exact ⟨value.trans error, same.trans erased⟩

/-- A start that fails may have removed a container. -/
theorem containers_start_invalidRequest :
    let o := (Runner.sample.start invalidRequest).run engine endedEngine .fresh
    (∃ err, o.value = .error err) ∧ o.engine.store.containers ≠ endedEngine.store.containers := by
  obtain ⟨value, erased⟩ := start_run_invalidRequest
  obtain ⟨c, found, -⟩ := find?_endedEngine
  refine ⟨⟨_, value⟩, ?_⟩
  rw [erased, Ne, ContainerStore.containers_erase_eq_iff, found]
  exact nofun

/-- What it has removed is the container of the job. -/
theorem start_run_of_error_invalidRequest :
    let name := Runner.sample.resourceName invalidRequest.key
    let o := (Runner.sample.start invalidRequest).run engine endedEngine .fresh
    o.value = .error (.function ⟨invalidRequest.function.reference, .badName⟩) ∧
      o.engine = { endedEngine with store := endedEngine.store.erase name } :=
  ⟨start_run_invalidRequest.1, (start_run_of_error start_run_invalidRequest.1).2.1⟩

end InMemory

end ContainerJobs
