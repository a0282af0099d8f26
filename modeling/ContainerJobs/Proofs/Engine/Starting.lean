import ContainerJobs.Proofs.Engine.InMemory
import ContainerJobs.Proofs.Launch.Arguments
import ContainerJobs.Proofs.Runner.HeldNames

/-!
# Starts on an engine in memory

What a start does to a store. The container that it may add was made for the job
(`isFor_container`) and carries the ids as they were given
(`carriesIds_container`). Whatever the runner, a start removes no container but
that of the job's name, and adds one only if the name is free (`start_cases`).
Where names tell the containers apart, a start succeeds unless a container lasts
(`start_run`).
-/

namespace ContainerJobs

/-! ## Containers of jobs -/

namespace Container

/-- The container was made for a job, under a stem for its name. -/
structure IsFor (c : Container) (stem : String) (k : JobKey) : Prop where
  /-- The name is that of the job. -/
  name : c.name = k.resourceName stem
  /-- The container is marked as that of a job. -/
  managed : Assoc.get? c.labels Label.managed = some "true"
  /-- The label of the project. -/
  project : Assoc.get? c.labels Label.project = some (Label.sanitize k.project)
  /-- The label of the trajectory. -/
  trajectory : Assoc.get? c.labels Label.trajectory = some (Label.sanitize k.trajectory)

/-- The container carries the ids of a job as they were given. -/
structure CarriesIds (c : Container) (k : JobKey) : Prop where
  /-- The project id. -/
  project : Assoc.get? c.labels Label.rawProject = some k.project
  /-- The trajectory id. -/
  trajectory : Assoc.get? c.labels Label.rawTrajectory = some k.trajectory

variable {c : Container} {stem : String} {k : JobKey}

theorem IsFor.isValue_name (h : c.IsFor stem k) : Label.IsValue c.name :=
  h.name ▸ k.isValue_resourceName stem

theorem IsFor.label_project (h : c.IsFor stem k) :
    c.label Label.project = Label.sanitize k.project := by
  rw [label, h.project, Option.getD_some]

theorem IsFor.label_trajectory (h : c.IsFor stem k) :
    c.label Label.trajectory = Label.sanitize k.trajectory := by
  rw [label, h.trajectory, Option.getD_some]

theorem CarriesIds.label_rawProject (h : c.CarriesIds k) :
    c.label Label.rawProject = k.project := by
  rw [label, h.project, Option.getD_some]

theorem CarriesIds.label_rawTrajectory (h : c.CarriesIds k) :
    c.label Label.rawTrajectory = k.trajectory := by
  rw [label, h.trajectory, Option.getD_some]

theorem get?_withoutRawIds (c : Container) (key : String) :
    Assoc.get? c.withoutRawIds.labels key =
      if key = Label.rawProject ∨ key = Label.rawTrajectory then none
      else Assoc.get? c.labels key := by
  rw [withoutRawIds]
  by_cases trajectory : key = Label.rawTrajectory
  · rw [trajectory, Assoc.get?_erase_self, if_pos (.inr rfl)]
  · rw [Assoc.get?_erase_of_ne trajectory]
    by_cases project : key = Label.rawProject
    · rw [project, Assoc.get?_erase_self, if_pos (.inl rfl)]
    · rw [Assoc.get?_erase_of_ne project, if_neg (by simp [project, trajectory])]

theorem label_withoutRawIds (c : Container) (key : String) : c.withoutRawIds.label key =
    if key = Label.rawProject ∨ key = Label.rawTrajectory then "" else c.label key := by
  rw [label, get?_withoutRawIds]
  split <;> rfl

theorem IsFor.hasLabel_managed (h : c.IsFor stem k) : c.hasLabel Label.managed "true" = true := by
  rw [hasLabel, h.managed, beq_self_eq_true]

end Container

namespace Runner

variable {r : Runner} {q : StartRequest} {task : TaskInstance}

/-- The container that an engine in memory makes for a request, from its id. -/
def container (r : Runner) (q : StartRequest) (task : TaskInstance) (id : String) : Container :=
  InMemory.launched ("run" :: r.launchArgs q task) (r.resourceName q.key) id

theorem isFor_container (id : String) :
    (r.container q task id).IsFor r.config.nameStem q.key where
  name := rfl
  managed := labels_launchArgs _ _ (Label.managed, "true") (by simp [JobKey.labels])
  project := labels_launchArgs _ _ (Label.project, Label.sanitize q.key.project)
    (by simp [JobKey.labels])
  trajectory := labels_launchArgs _ _
    (Label.trajectory, Label.sanitize q.key.trajectory) (by simp [JobKey.labels])

theorem carriesIds_container (id : String) : (r.container q task id).CarriesIds q.key where
  project := labels_launchArgs _ _ (Label.rawProject, q.key.project)
    (by simp [JobKey.labels])
  trajectory := labels_launchArgs _ _ (Label.rawTrajectory, q.key.trajectory)
    (by simp [JobKey.labels])

end Runner

namespace ContainerStore

variable {s : ContainerStore} {name : String} {f : String → Container}

theorem hindrance_presence_eq_nothing_iff :
    (s.presence name).hindrance = .nothing ↔ s.find? name = none := by
  rw [← InMemory.presence_eq_missing_iff]
  cases s.presence name with
  | found state =>
    simp only [Presence.hindrance, reduceCtorEq, iff_false]
    split <;> simp
  | _ => simp [Presence.hindrance]

end ContainerStore

/-! ## Starts -/

namespace InMemory

variable {r : Runner} {q : StartRequest} {task : TaskInstance} {s : ContainerStore}
  {lock : StartLock}

theorem engine_launchArgs (s : ContainerStore) (r : Runner) (q : StartRequest)
    (task : TaskInstance) :
    ∃ reply, engine ("run" :: r.launchArgs q task) { store := s } = (.ok reply,
        { store := if (s.find? (r.resourceName q.key)).isSome then s
            else s.add (r.container q task) }) ∧
      reply.isSuccess = (s.find? (r.resourceName q.key)).isNone := by
  obtain ⟨rest, names⟩ := r.optionValues_name_launchArgs q task
  change ∃ reply, ((Except.ok (launch s ("run" :: r.launchArgs q task)).1 : Answer),
    ({ store := (launch s ("run" :: r.launchArgs q task)).2 } : InMemory)) = _ ∧ _
  -- The engine only asks whether the one name it is given is free.
  rw [launch, names]
  cases found : (s.find? (r.resourceName q.key)).isSome with
  | true =>
    simp only [found, if_true]
    exact ⟨_, rfl, by simp [← Option.not_isSome, found]; rfl⟩
  | false =>
    simp only [found, Bool.false_eq_true, if_false]
    exact ⟨_, rfl, by simp [← Option.not_isSome, found]⟩

/-- A launch for a job on any engine makes its container, or fails and does nothing. -/
theorem engine_launchArgs_cases (e : InMemory) (r : Runner) (q : StartRequest)
    (task : TaskInstance) :
    ∃ reply, (engine ("run" :: r.launchArgs q task) e).1 = .ok reply ∧
      ((reply.isSuccess = false ∧ (engine ("run" :: r.launchArgs q task) e).2 = e) ∨
        (reply.isSuccess = true ∧ e.store.find? (r.resourceName q.key) = none ∧
          (engine ("run" :: r.launchArgs q task) e).2 =
            { e with store := e.store.add (r.container q task) })) := by
  obtain ⟨store, refusesLaunch, isDown⟩ := e
  cases isDown with
  | true => exact ⟨down, rfl, .inl ⟨rfl, rfl⟩⟩
  | false =>
    cases refusesLaunch with
    | true => exact ⟨_, rfl, .inl ⟨rfl, rfl⟩⟩
    | false =>
      obtain ⟨reply, launched, success⟩ := engine_launchArgs store r q task
      refine ⟨reply, congrArg Prod.fst launched, ?_⟩
      have after := congrArg Prod.snd launched
      cases found : store.find? (r.resourceName q.key) with
      | none =>
        simp only [found, Option.isSome_none, Bool.false_eq_true, if_false] at after
        exact .inr ⟨by simp [success, found], rfl, after⟩
      | some c =>
        simp only [found, Option.isSome_some, if_true] at after
        exact .inl ⟨by simp [success, found], after⟩

/-- What a launch may do to a store. -/
theorem launch_cases (r : Runner) (q : StartRequest) (s : ContainerStore) (lock : StartLock) :
    ((r.launch q).run engine { store := s } lock).engine = { store := s } ∨
      ∃ task, s.find? (r.resourceName q.key) = none ∧
        ((r.launch q).run engine { store := s } lock).engine =
          { store := s.add (r.container q task) } := by
  obtain ⟨err, he, -⟩ | ⟨task, p, -, -, hp, args⟩ := r.plan_cases q
  · exact .inl (by simp [Runner.launch, he])
  · obtain ⟨reply, launched, -⟩ := engine_launchArgs s r q task
    simp only [Runner.launch, hp, Dialogue.command_bind, Dialogue.run_ask, args, launched,
      Dialogue.run_pure]
    cases found : s.find? (r.resourceName q.key) with
    | none => exact .inr ⟨task, rfl, rfl⟩
    | some c => exact .inl rfl

/-- A start whose name is free does what it does without regard to the lock. -/
theorem start_run_of_free (free : lock.isHeld (r.resourceName q.key) = false) (e : InMemory) :
    ∃ lock', ((r.start q).run engine e lock).value =
        ((r.startUnlocked q).run engine e lock').value ∧
      ((r.start q).run engine e lock).engine =
        ((r.startUnlocked q).run engine e lock').engine := by
  obtain ⟨lock', same⟩ := Runner.start_run_of_free free e
  exact ⟨lock', by rw [same], by rw [same]⟩

/-- While its name is held, a start does nothing. -/
theorem start_run_of_isHeld (held : lock.isHeld (r.resourceName q.key) = true) (e : InMemory) :
    ((r.start q).run engine e lock).value = .ok false ∧
      ((r.start q).run engine e lock).engine = e := by
  rw [Runner.start_run_of_isHeld held]
  exact ⟨rfl, rfl⟩

/-- What a start may do to a store. -/
theorem start_cases (r : Runner) (q : StartRequest) (s : ContainerStore) (lock : StartLock) :
    ∃ t, (t = s ∨ t = s.erase (r.resourceName q.key)) ∧
      (((r.start q).run engine { store := s } lock).engine = { store := t } ∨
        ∃ task, t.find? (r.resourceName q.key) = none ∧
          ((r.start q).run engine { store := s } lock).engine =
            { store := t.add (r.container q task) }) := by
  cases held : lock.isHeld (r.resourceName q.key) with
  | true => exact ⟨s, .inl rfl, .inl (start_run_of_isHeld held _).2⟩
  | false =>
    obtain ⟨lock', -, same⟩ := start_run_of_free held { store := s }
    simp only [same, Runner.startUnlocked, Dialogue.command_bind, Dialogue.run_ask,
      engine_inspectState, ofReply_inspectState]
    cases (s.presence (r.resourceName q.key)).hindrance with
    | nothing => exact ⟨s, .inl rfl, launch_cases r q s lock'⟩
    | lasting => exact ⟨s, .inl rfl, .inl rfl⟩
    | removable =>
      obtain ⟨gone, erased⟩ := removeContainer_run s lock'
        (q.key.head?_resourceName_ne_hyphen r.config.nameStem)
      refine ⟨s.erase (r.resourceName q.key), .inr rfl, ?_⟩
      simp only [Dialogue.run_bind, Runner.resourceName, gone, erased, if_true]
      exact launch_cases r q _ _

theorem launch_run (s : ContainerStore) (lock : StartLock)
    (hf : q.function.validate = .ok q.function) (ht : r.instances q.key.trajectory = .ok task)
    (none : s.find? (r.resourceName q.key) = none) :
    ((r.launch q).run engine { store := s } lock).value = .ok true ∧
      ((r.launch q).run engine { store := s } lock).engine =
        { store := s.add (r.container q task) } := by
  obtain ⟨p, hp, args⟩ := Runner.plan_of_task hf ht
  obtain ⟨reply, launched, success⟩ := engine_launchArgs s r q task
  simp only [none, Option.isSome_none, Bool.false_eq_true, if_false, Option.isNone_none]
    at launched success
  simp [Runner.launch, hp, args, launched, success]

/-- A start leaves a container alone that lasts. -/
theorem start_run_of_lasting (lasting : (s.presence (r.resourceName q.key)).hindrance = .lasting)
    (free : lock.isHeld (r.resourceName q.key) = false) :
    ((r.start q).run engine { store := s } lock).value = .ok false ∧
      ((r.start q).run engine { store := s } lock).engine = { store := s } := by
  obtain ⟨lock', value, same⟩ := start_run_of_free free { store := s }
  simp only [value, same, Runner.startUnlocked, Dialogue.command_bind, Dialogue.run_ask,
    engine_inspectState, ofReply_inspectState, lasting, Dialogue.run_pure, and_self]

/-- A start of a job with a valid function and a known task makes its container
    anew, unless the one that is there lasts. -/
theorem start_run (h : s.NamesApart) (free : lock.isHeld (r.resourceName q.key) = false)
    (hf : q.function.validate = .ok q.function) (ht : r.instances q.key.trajectory = .ok task) :
    ((s.presence (r.resourceName q.key)).hindrance = .lasting ∧
      ((r.start q).run engine { store := s } lock).value = .ok false ∧
      ((r.start q).run engine { store := s } lock).engine = { store := s }) ∨
    ((s.presence (r.resourceName q.key)).hindrance ≠ .lasting ∧
      ((r.start q).run engine { store := s } lock).value = .ok true ∧
      ((r.start q).run engine { store := s } lock).engine =
        { store := (s.erase (r.resourceName q.key)).add (r.container q task) }) := by
  obtain ⟨lock', value, same⟩ := start_run_of_free free { store := s }
  simp only [value, same, Runner.startUnlocked, Dialogue.command_bind, Dialogue.run_ask,
    engine_inspectState, ofReply_inspectState]
  cases hh : (s.presence (r.resourceName q.key)).hindrance with
  | nothing =>
    -- The name is free, so the removal in the statement removes nothing.
    have none := ContainerStore.hindrance_presence_eq_nothing_iff.1 hh
    rw [ContainerStore.erase_of_find?_eq_none none]
    exact .inr ⟨by decide, launch_run s lock' hf ht none⟩
  | lasting => exact .inl ⟨rfl, rfl, rfl⟩
  | removable =>
    obtain ⟨gone, erased⟩ := removeContainer_run s lock'
      (q.key.head?_resourceName_ne_hyphen r.config.nameStem)
    have none := h.distinct.find?_erase (q.key.hyphen_mem_resourceName r.config.nameStem)
    refine .inr ⟨by decide, ?_⟩
    simp only [Dialogue.run_bind, Runner.resourceName, gone, erased, if_true]
    exact launch_run _ _ hf ht none

end InMemory

end ContainerJobs
