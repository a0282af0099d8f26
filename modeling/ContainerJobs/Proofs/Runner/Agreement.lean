import ContainerJobs.Proofs.Engine.Effect
import ContainerJobs.Proofs.Engine.Inspection
import ContainerJobs.Proofs.Engine.Row

/-!
# Listings and reports

A runner tells of a job in two ways: an entry of a listing is made from the line of a
state, and a report from the full inspection of the container. Of a container that the
runner started itself (`Container.IsStartedBy`), the two tell the same, whatever its
state has become, but for one thing (`JobDetails.AgreesWith`). A report has the end that
the engine wrote down, also that of an earlier run of a container that was started again.
An entry has an end exactly if the job has ended, and then the present stands in for one
that cannot be read. So the two ends are the same as long as the engine wrote one down
exactly for the jobs that have ended (`InMemory.jobs_details_agree`).
-/

namespace ContainerJobs

/-- The container is the one that a runner started for a job, whatever became of its state
    and its output, and it can be told of. -/
structure Container.IsStartedBy (c : Container) (r : Runner) (k : JobKey) : Prop where
  /-- It has the name and the labels of a container that the runner made for the job. -/
  started : ∃ q task, q.key = k ∧ c.identity = (r.container q task c.id).identity
  /-- The ids pass through labels and listings. -/
  proper : k.IsProper
  /-- The state passes through a line of fields. -/
  state : c.state.IsPlain
  /-- The engine's word for it passes through a listing. -/
  status : Listing.IsPlain c.state.status
  /-- The line is not garbled. -/
  readable : c.garbled = false

/-- A report and an entry of a listing tell the same of a job, but for its end. The entry
    has one only if the job has ended, and the present stands in for what the report
    lacks. -/
structure JobDetails.AgreesWith (d : JobDetails) (j : JobInfo) (present : Instant) : Prop where
  /-- Both are about the same job. -/
  key : d.key = j.key
  /-- Both show the same id. -/
  id : d.id = j.id
  /-- Both have the same status. -/
  status : d.status = j.status
  /-- Both have the same time of creation. -/
  enqueuedAt : d.enqueuedAt = some j.enqueuedAt
  /-- Both have the same start. -/
  startedAt : d.startedAt = j.startedAt
  /-- What the report has for an end counts for a job that has ended. -/
  endedAt : j.endedAt =
    if j.status.isTerminal then some (d.endedAt.getD present) else none

theorem ListedContainer.key_job (row : ListedContainer) (present : Instant) (s : ContainerState) :
    (row.job present s).key = row.key := rfl

/-- What is to be checked of a report that was made from the state of a container. -/
theorem JobDetails.agreesWith_job {d : JobDetails} {row : ListedContainer} {present : Instant}
    {s : ContainerState} (key : d.key = row.key) (id : d.id = d.key.id)
    (status : d.status = s.jobStatus)
    (enqueuedAt : d.enqueuedAt = some (row.createdAt.getD present))
    (startedAt : d.startedAt = EngineTime.instant? s.startedAt)
    (endedAt : d.endedAt = EngineTime.instant? s.finishedAt) :
    d.AgreesWith (row.job present s) present := by
  rw [ListedContainer.job]
  -- It does not matter how the state tells its status and its times.
  generalize s.jobStatus = told at status ⊢
  generalize EngineTime.instant? s.startedAt = start at startedAt ⊢
  generalize EngineTime.instant? s.finishedAt = finish at endedAt ⊢
  subst endedAt
  exact ⟨key, by rw [id, key], status, enqueuedAt, startedAt, rfl⟩

/-- The ends are the same unless a job that has ended lacks one, or another one has one. -/
theorem JobDetails.AgreesWith.endedAt_eq_iff {d : JobDetails} {j : JobInfo} {present : Instant}
    (h : d.AgreesWith j present) :
    d.endedAt = j.endedAt ↔ d.endedAt.isSome = d.status.isTerminal := by
  rw [h.endedAt, h.status]
  cases d.endedAt <;> cases j.status.isTerminal <;> simp

theorem Runner.sorted_labels_container {r : Runner} {q : StartRequest} {task : TaskInstance}
    (id : String) : Assoc.Sorted (r.container q task id).labels := by
  rw [container, InMemory.labels_launched]
  exact Assoc.sorted_ofPairs _

namespace Container.IsStartedBy

variable {c : Container} {r : Runner} {k : JobKey}

theorem exists_made (h : c.IsStartedBy r k) : ∃ d : Container, d.IsFor r.config.nameStem k ∧
    d.CarriesIds k ∧ Assoc.Sorted d.labels ∧ c.name = d.name ∧ c.labels = d.labels := by
  obtain ⟨q, task, rfl, same⟩ := h.started
  simp only [identity, Prod.mk.injEq] at same
  exact ⟨_, Runner.isFor_container c.id, Runner.carriesIds_container c.id,
    Runner.sorted_labels_container c.id, same.2⟩

theorem isFor (h : c.IsStartedBy r k) : c.IsFor r.config.nameStem k := by
  obtain ⟨d, made, -, -, name, labels⟩ := h.exists_made
  exact ⟨name.trans made.name, labels ▸ made.managed, labels ▸ made.project,
    labels ▸ made.trajectory⟩

theorem carriesIds (h : c.IsStartedBy r k) : c.CarriesIds k := by
  obtain ⟨d, -, carries, -, -, labels⟩ := h.exists_made
  exact ⟨labels ▸ carries.project, labels ▸ carries.trajectory⟩

theorem sorted_labels (h : c.IsStartedBy r k) : Assoc.Sorted c.labels := by
  obtain ⟨d, -, -, sorted, -, labels⟩ := h.exists_made
  exact labels ▸ sorted

theorem isListable (h : c.IsStartedBy r k) : c.IsListable :=
  h.isFor.isListable h.carriesIds h.proper.project.isPlain h.proper.trajectory.isPlain h.status

theorem name_eq (h : c.IsStartedBy r k) : c.name = r.resourceName k :=
  h.isFor.name

theorem key_listed (h : c.IsStartedBy r k) : c.listed.key = k :=
  (h.carriesIds.listed_key h.proper).1

theorem presence_eq (h : c.IsStartedBy r k) : c.presence = .found c.state :=
  c.presence_eq_found h.state h.readable

/-- A listing of all jobs, or of those of its project, is to show the container. -/
theorem isListedFor (h : c.IsStartedBy r k) {project : Option String}
    (asked : project = none ∨ project = some k.project) : c.isListedFor project = true := by
  obtain rfl | rfl := asked
  · rw [Container.isListedFor, isMarkedFor, h.isFor.hasLabel_managed]
    rfl
  · have belongs : c.listed.belongsTo k.project = true := by
      rw [ListedContainer.belongsTo, (h.carriesIds.listed_key h.proper).2, if_pos rfl,
        h.key_listed, beq_self_eq_true]
    rw [Container.isListedFor, h.isFor.isMarkedFor, beq_self_eq_true, Bool.true_and,
      Option.all_some, belongs]

end Container.IsStartedBy

namespace InMemory

variable {s : ContainerStore} {c : Container} {r : Runner} {k : JobKey}

/-! ## Entries -/

theorem find?_of_isStartedBy (distinct : s.NamesDistinct) (hc : c ∈ s.containers)
    (h : c.IsStartedBy r k) : s.find? c.name = some c :=
  distinct.find?_of_mem hc (h.name_eq ▸ k.hyphen_mem_resourceName _)

/-- The entry of a container in a listing. -/
theorem mem_jobs_iff (distinct : s.NamesDistinct) (hc : c ∈ s.containers)
    (h : c.IsStartedBy r k) {present : Instant} {project : Option String}
    (listed : c.isListedFor project = true) {j : JobInfo} :
    (c, j) ∈ s.jobs present project ↔ j = c.listed.job present c.state := by
  obtain ⟨marked, belongs⟩ := Bool.and_eq_true_iff.1 listed
  have row : c.rows project = [c.listed] := by
    rw [rows_of_isListable h.isListable]
    simp [belongs]
  -- The name in the row leads back to this container.
  have told : s.job? present c.listed = some (c.listed.job present c.state) := by
    rw [ContainerStore.job?_of_find?_eq_some (find?_of_isStartedBy distinct hc h), h.presence_eq]
    rfl
  simp [ContainerStore.mem_jobs, ContainerStore.mem_rows, row, told, hc, marked, eq_comm]

/-- A runner's own containers are told apart by the keys of their entries. -/
theorem eq_of_mem_jobs {c' : Container} {k' : JobKey} (distinct : s.NamesDistinct)
    (hc : c ∈ s.containers) (h : c.IsStartedBy r k) (h' : c'.IsStartedBy r k')
    {present : Instant} {project : Option String} {j : JobInfo}
    (told : (c', j) ∈ s.jobs present project) (key : j.key = k) : c' = c := by
  obtain ⟨row, hrow, job⟩ := ContainerStore.mem_jobs.1 told
  obtain ⟨hc', -, hrow⟩ := ContainerStore.mem_rows.1 hrow
  rw [rows_of_isListable h'.isListable] at hrow
  obtain rfl : row = c'.listed := List.mem_singleton.1 (List.mem_filter.1 hrow).1
  obtain ⟨state, -, rfl⟩ := Option.map_eq_some_iff.1 job
  -- The row tells the ids as they were given, and the name follows from them.
  refine distinct.eq_of_name hc' hc ?_
  rw [h'.name_eq, h.name_eq, ← h'.key_listed, ← key, ListedContainer.key_job]

/-! ## Reports -/

/-- The two texts for the time of creation are read alike. -/
theorem instant?_created (c : Container) (present : Instant) :
    EngineTime.instant? "2024-05-01T09:59:58.000000000Z" =
      some (c.listed.createdAt.getD present) := by
  have listed : Instant.ofListing? creationTime = some ⟨1714557598, 0⟩ := by decide
  have inspected : EngineTime.instant? "2024-05-01T09:59:58.000000000Z" =
      some ⟨1714557598, 0⟩ := by decide
  rw [inspected, Container.listed, listed, Option.getD_some]

theorem details_run_of_isStartedBy (distinct : s.NamesDistinct) (hc : c ∈ s.containers)
    (h : c.IsStartedBy r k) (present : Instant) (lock : StartLock) :
    ∃ d, ((r.details k).run engine { store := s } lock).value = some d ∧
      d.AgreesWith (c.listed.job present c.state) present ∧
      d.endedAt = EngineTime.instant? c.state.finishedAt := by
  have found : s.find? (r.resourceName k) = some c :=
    h.name_eq ▸ find?_of_isStartedBy distinct hc h
  obtain ⟨i, item, key, status, -, run⟩ :=
    details_run found h.state.exitCode h.sorted_labels lock
  obtain ⟨created, started, ended⟩ := ofInspection_times item
  refine ⟨_, run, ?_, ended⟩
  exact JobDetails.agreesWith_job (key.trans h.key_listed.symm) rfl status
    (created.trans (instant?_created c present)) started ended

/-- The listing and the report of a job that the runner started agree. Of all entries that
    containers of the runner have, that of the job is the only one under its key. The ends
    are the same exactly if the engine wrote one down for a job that has ended, or none for
    one that has not. -/
theorem jobs_details_agree (distinct : s.NamesDistinct) (hc : c ∈ s.containers)
    (h : c.IsStartedBy r k) (present : Instant) {project : Option String}
    (asked : project = none ∨ project = some k.project) (lock : StartLock) :
    ((Dialogue.jobs present project).run engine { store := s } lock).value =
        (s.jobs present project).map (·.2) ∧
      ∃ j d, (c, j) ∈ s.jobs present project ∧ j.key = k ∧
        (∀ c' k' j', c'.IsStartedBy r k' → (c', j') ∈ s.jobs present project → j'.key = k →
          c' = c ∧ j' = j) ∧
        ((r.details k).run engine { store := s } lock).value = some d ∧
        d.AgreesWith j present ∧ d.endedAt = EngineTime.instant? c.state.finishedAt ∧
        (d.endedAt = j.endedAt ↔ d.endedAt.isSome = d.status.isTerminal) := by
  obtain ⟨d, run, agree, ended⟩ := details_run_of_isStartedBy distinct hc h present lock
  have entry {j : JobInfo} :
      (c, j) ∈ s.jobs present project ↔ j = c.listed.job present c.state :=
    mem_jobs_iff distinct hc h (h.isListedFor asked)
  have key : (c.listed.job present c.state).key = k := by
    rw [ListedContainer.key_job, h.key_listed]
  refine ⟨(jobs_run s present project lock).1, _, d, entry.2 rfl, key, ?_, run, agree, ended,
    agree.endedAt_eq_iff⟩
  intro c' k' j' h' told key
  obtain rfl := eq_of_mem_jobs distinct hc h h' told key
  exact ⟨rfl, entry.1 told⟩

/-! ## A container that was started again -/

/-- When the sample is looked at. -/
def sampleNow : Instant := ⟨1714558500, 0⟩

/-- The job of the sample. -/
def sampleKey : JobKey := ⟨"lens", "run-1"⟩

/-- A container that ended once and runs again. -/
def sampleRestart : Container :=
  { Runner.sample.container (Runner.sampleRequest sampleKey) { repo := "astro/astropy" }
      (ContainerStore.idOf 1) with
    state :=
      { status := "running", running := true, exitCode := 0,
        startedAt := "2024-05-01T10:10:00Z", finishedAt := "2024-05-01T10:05:00Z" } }

/-- An engine with this container. -/
def sampleRestarted : ContainerStore :=
  { containers := [sampleRestart], lastNumber := 1 }

theorem namesDistinct_sampleRestarted : sampleRestarted.NamesDistinct :=
  ContainerStore.namesApart_empty.distinct.add (f := fun id => { sampleRestart with id })
    (fun _ => ⟨rfl, rfl⟩) (by simp)

theorem isStartedBy_sampleRestart : sampleRestart.IsStartedBy Runner.sample sampleKey where
  started := ⟨Runner.sampleRequest sampleKey, { repo := "astro/astropy" }, rfl, rfl⟩
  proper :=
    ⟨⟨by decide, by decide, by decide, by decide⟩, ⟨by decide, by decide, by decide, by decide⟩⟩
  state := ⟨⟨by decide, by decide⟩, by decide, ⟨by decide, by decide⟩, ⟨by decide, by decide⟩⟩
  status := ⟨by decide, by decide⟩
  readable := rfl

theorem jobs_details_agree_sampleRestart :
    sampleRestarted.NamesDistinct ∧ sampleRestart ∈ sampleRestarted.containers ∧
      sampleRestart.IsStartedBy Runner.sample sampleKey ∧
      ∃ j d, (sampleRestart, j) ∈ sampleRestarted.jobs sampleNow none ∧ j.key = sampleKey ∧
        ((Runner.sample.details sampleKey).run engine { store := sampleRestarted } .always).value =
          some d ∧ d.AgreesWith j sampleNow := by
  have mem : sampleRestart ∈ sampleRestarted.containers := List.mem_singleton_self _
  obtain ⟨-, j, d, entry, key, -, report, agree, -⟩ := jobs_details_agree
    namesDistinct_sampleRestarted mem isStartedBy_sampleRestart sampleNow (.inl rfl) .always
  exact ⟨namesDistinct_sampleRestarted, mem, isStartedBy_sampleRestart, j, d, entry, key, report,
    agree⟩

/-- The job runs, so its entry has no end, but the report has the end of the first run. -/
theorem sampleRestart_ends_differ :
    sampleRestarted.NamesDistinct ∧ sampleRestart ∈ sampleRestarted.containers ∧
      sampleRestart.IsStartedBy Runner.sample sampleKey ∧
      ∃ j d, j ∈ ((Dialogue.jobs sampleNow none).run engine { store := sampleRestarted }
          .always).value ∧ j.key = sampleKey ∧
        ((Runner.sample.details sampleKey).run engine { store := sampleRestarted } .always).value =
          some d ∧
        j.endedAt = none ∧ d.endedAt = some ⟨1714557900, 0⟩ ∧ d.status.isTerminal = false := by
  have mem : sampleRestart ∈ sampleRestarted.containers := List.mem_singleton_self _
  have h := isStartedBy_sampleRestart
  obtain ⟨d, report, agree, ended⟩ := details_run_of_isStartedBy namesDistinct_sampleRestarted
    mem h sampleNow .always
  have entry : (sampleRestart, sampleRestart.listed.job sampleNow sampleRestart.state) ∈
      sampleRestarted.jobs sampleNow none :=
    (mem_jobs_iff namesDistinct_sampleRestarted mem h (h.isListedFor (.inl rfl))).2 rfl
  refine ⟨namesDistinct_sampleRestarted, mem, h,
    sampleRestart.listed.job sampleNow sampleRestart.state, d, ?_, h.key_listed, report, rfl, ?_,
    ?_⟩
  · rw [(jobs_run _ _ _ _).1]
    exact List.mem_map_of_mem entry
  · rw [ended]
    decide
  · rw [agree.status]
    rfl

end InMemory

end ContainerJobs
