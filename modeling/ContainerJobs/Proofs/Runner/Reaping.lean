import ContainerJobs.Proofs.Engine.History
import ContainerJobs.Proofs.Engine.Row
import ContainerJobs.Proofs.Runner.Cleanup
import ContainerJobs.Proofs.Runner.Due

/-!
# What a pass of the reaper removes

A pass goes from a container to its row, from the row to a job, and from the job
to the name that the runner of the pass would have given its container. Nothing
checks that this leads back to where it began. It does not if another runner with
another name stem started the job, or if the row does not tell the ids as they
were given; the container then stays, and is reported as removed all the same
(`Runner.reap_replay`).
-/

namespace ContainerJobs

/-! ## When jobs are due -/

theorem Instant.isOlderThan_of_nanosBetween_le {earlier later now : Instant} {limit : Nat}
    (h : nanosBetween later now ≤ nanosBetween earlier now)
    (old : later.isOlderThan now limit = true) : earlier.isOlderThan now limit = true := by
  simp only [isOlderThan, Bool.and_eq_true, decide_eq_true_eq] at old ⊢
  omega

variable {p : ReapPolicy} {present later now : Instant} {project : Option String}

/-- The clock is read for the age of a listed job only where a time is missing. -/
theorem ListedContainer.exists_since?_job (row : ListedContainer) (s : ContainerState) :
    ∃ told : Option (Option Instant), ∀ present,
      (row.job present s).since? = told.map (·.getD present) := by
  refine ⟨if s.jobStatus.isTerminal then some (EngineTime.instant? s.finishedAt)
    else if s.jobStatus.isActive then some ((EngineTime.instant? s.startedAt).or row.createdAt)
    else none, fun present => ?_⟩
  have status : (row.job present s).status = s.jobStatus := rfl
  rw [JobInfo.since?, status]
  by_cases ended : s.jobStatus.isTerminal = true
  · simp only [if_pos ended, ListedContainer.job, Option.map_some]
  · rw [if_neg ended, if_neg ended]
    by_cases active : s.jobStatus.isActive = true
    · simp only [if_pos active, ListedContainer.job, Option.map_some]
      cases EngineTime.instant? s.startedAt <;> rfl
    · rw [if_neg active, if_neg active, Option.map_none]

/-- A job that is due in a listing would have been due in an earlier one, where the
    present stands in for times that cannot be read. -/
theorem ReapPolicy.isSome_reason?_of_later (row : ListedContainer) (s : ContainerState)
    (h : later.nanosBetween now ≤ present.nanosBetween now)
    (due : (p.reason? now (row.job later s)).isSome = true) :
    (p.reason? now (row.job present s)).isSome = true := by
  obtain ⟨told, since⟩ := row.exists_since?_job s
  rw [reason?_eq, since] at due ⊢
  cases told with
  | none => cases due
  | some t =>
    rw [Option.map_some, Option.bind_some, Option.isSome_ite] at due ⊢
    cases t with
    | some t => exact due
    | none => exact Instant.isOlderThan_of_nanosBetween_le h due

/-- The report of a pass that removes each job that is due. -/
def ReapReport.ofDue (p : ReapPolicy) (now : Instant) (jobs : List JobInfo) : ReapReport where
  expired := (jobs.filter fun j => p.reason? now j = some .expired).map (·.id)
  timedOut := (jobs.filter fun j => p.reason? now j = some .timedOut).map (·.id)

theorem ReapReport.ofDue_eq_empty_iff {jobs : List JobInfo} :
    ofDue p now jobs = {} ↔ ∀ j ∈ jobs, p.reason? now j = none := by
  simp only [ofDue, ReapReport.mk.injEq, List.map_eq_nil_iff, List.filter_eq_nil_iff, and_true,
    decide_eq_true_eq, ← forall₂_and]
  refine forall₂_congr fun j _ => ?_
  rcases p.reason? now j with _ | _ | _ <;> simp

namespace Container

/-- The container is due by its own state. -/
def isDue (c : Container) (p : ReapPolicy) (present now : Instant) : Bool :=
  (c.job? present).any fun j => (p.reason? now j).isSome

end Container

namespace ContainerStore

/-- The jobs of a listing that are due, each with the container whose row told it. -/
def dueJobs (s : ContainerStore) (p : ReapPolicy) (present now : Instant)
    (project : Option String) : List (Container × JobInfo) :=
  (s.jobs present project).filter fun x => (p.reason? now x.2).isSome

/-- The store without the containers of some names. -/
def without (s : ContainerStore) (names : List String) : ContainerStore :=
  { s with containers := s.containers.filter (·.name ∉ names) }

theorem mem_without {s : ContainerStore} {names : List String} {c : Container} :
    c ∈ (s.without names).containers ↔ c ∈ s.containers ∧ c.name ∉ names := by
  simp [without]

theorem NamesApart.without {s : ContainerStore} (h : s.NamesApart) (names : List String) :
    (s.without names).NamesApart :=
  h.of_isPart (isPart_filter s _)

theorem without_nil (s : ContainerStore) : s.without [] = s := by
  simp [without]

theorem without_without (s : ContainerStore) (names others : List String) :
    (s.without names).without others = s.without (names ++ others) := by
  simp [without, List.filter_filter, Bool.and_comm]

/-- The rows of a listing after a removal are those of the containers that are left. -/
theorem mem_rows_without {s : ContainerStore} {names : List String}
    {x : Container × ListedContainer} :
    x ∈ (s.without names).rows project ↔ x ∈ s.rows project ∧ x.1.name ∉ names := by
  rw [mem_rows, mem_rows, mem_without, and_right_comm]

theorem job?_of_mem {s : ContainerStore} (h : s.NamesApart) {c : Container}
    (hc : c ∈ s.containers) {row : ListedContainer} (name : row.name = c.name) :
    s.job? present row = c.presence.state?.map (row.job present) :=
  job?_of_find?_eq_some (name ▸ find?_of_mem h hc)

theorem mem_containers_of_mem_dueJobs {s : ContainerStore} {x : Container × JobInfo}
    (h : x ∈ s.dueJobs p present now project) : x.1 ∈ s.containers := by
  obtain ⟨row, hrow, -⟩ := mem_jobs.1 (List.mem_filter.1 h).1
  exact (mem_rows.1 hrow).1

end ContainerStore

/-! ## One pass -/

namespace InMemory

variable {r : Runner} {s : ContainerStore}

theorem cleanup_run_of_namesApart (r : Runner) (key : JobKey) (h : s.NamesApart)
    (lock : StartLock) :
    ((r.cleanup key).run engine { store := s } lock).value = true ∧
      ((r.cleanup key).run engine { store := s } lock).engine =
        { store := s.without [r.resourceName key] } := by
  obtain ⟨gone, erased⟩ := Runner.cleanup_run_of_isUp (m := { store := s }) r key rfl lock
  refine ⟨gone, erased.trans ?_⟩
  have hyphen : '-' ∈ (r.resourceName key).toList := key.hyphen_mem_resourceName _
  rw [h.distinct.erase_name hyphen, ContainerStore.without]
  simp

/-- A pass through any jobs removes the containers under the names that its runner
    has for those that are due. -/
theorem reap_run (r : Runner) (p : ReapPolicy) (now : Instant) (h : s.NamesApart)
    (lock : StartLock) (jobs : List JobInfo) :
    ((ContainerJobs.reap r.cleanup p now jobs).run engine { store := s } lock).value =
        .ofDue p now jobs ∧
      ((ContainerJobs.reap r.cleanup p now jobs).run engine { store := s } lock).engine =
        { store := s.without ((jobs.filter fun j => (p.reason? now j).isSome).map
            fun j => r.resourceName j.key) } := by
  induction jobs generalizing s lock with
  | nil => exact ⟨rfl, by rw [List.filter_nil, List.map_nil, ContainerStore.without_nil]; rfl⟩
  | cons j jobs ih =>
    rw [ContainerJobs.reap]
    cases due : p.reason? now j with
    | none =>
      obtain ⟨report, left⟩ := ih h lock
      refine ⟨report.trans ?_, left.trans ?_⟩
      · simp [ReapReport.ofDue, due]
      · simp [due]
    | some reason =>
      -- A cleanup never fails, whatever the name means, so the job is reported as removed.
      obtain ⟨gone, erased⟩ := cleanup_run_of_namesApart r j.key h lock
      obtain ⟨report, left⟩ := ih (h.without [r.resourceName j.key]) _
      simp only [Dialogue.run_bind, Dialogue.run_pure, gone, erased, if_true]
      refine ⟨?_, left.trans ?_⟩
      · rw [report]
        cases reason <;> simp [ReapReport.ofDue, ReapReport.addRemoved, due]
      · rw [ContainerStore.without_without]
        simp [due]

/-- What a pass reports and leaves. -/
theorem reapPass_run (r : Runner) (p : ReapPolicy) (present now : Instant)
    (project : Option String) (h : s.NamesApart) (lock : StartLock) :
    ((r.reap p present now project).run engine { store := s } lock).value =
        .ofDue p now ((s.jobs present project).map (·.2)) ∧
      ((r.reap p present now project).run engine { store := s } lock).engine =
        { store := s.without ((s.dueJobs p present now project).map
            fun x => r.resourceName x.2.key) } := by
  obtain ⟨jobs, same⟩ := jobs_run s present project lock
  simp only [Runner.reap, Dialogue.run_bind, jobs, same]
  obtain ⟨report, left⟩ := reap_run r p now h _ ((s.jobs present project).map (·.2))
  refine ⟨report, left.trans ?_⟩
  rw [List.filter_map, List.map_map]
  rfl

end InMemory

/-! ## Passes after histories -/

/-- No id and no state that the event brings in breaks a row of a listing. -/
def EngineEvent.IsUnbroken : EngineEvent → Prop
  | start _ q _ => '\n' ∉ q.key.project.toList ∧ '\n' ∉ q.key.trajectory.toList
  | setState _ state => '\n' ∉ state.status.toList
  | stripIds _ => True
  | addUnmanaged _ => False

/-- Rows stay unbroken as long as nothing comes in that breaks them. -/
theorem Container.IsUnbroken.apply {v : EngineEvent} {s t : ContainerStore}
    (hv : v.IsUnbroken) (ht : v.apply { store := s } = { store := t })
    (h : ∀ c ∈ s.containers, c.IsUnbroken) : ∀ c ∈ t.containers, c.IsUnbroken := by
  intro d hd
  cases EngineEvent.leaves_of_mem ht hd with
  | kept _ hd => exact h d hd
  | started r q lock task id =>
    exact (Runner.isFor_container _).isUnbroken (Runner.carriesIds_container _) hv
      (by change '\n' ∉ ContainerState.started.status.toList; decide)
  | changed address state hc => exact ⟨(h _ hc).name, (h _ hc).labels, hv⟩
  | @stripped address c hc =>
    refine ⟨(h c hc).name, fun key hkey => ?_, (h c hc).status⟩
    rw [Container.label_withoutRawIds]
    split
    · simp
    · exact (h c hc).labels key hkey
  | added => exact hv.elim

/-! ## A pass by the runner that started the jobs -/

/-- The event is the start of a job under the name stem of the runner, or a change of
    state, and what it brings in passes through a listing as it is. -/
def EngineEvent.IsOrdinary (r : Runner) : EngineEvent → Prop
  | start r' q _ => r'.config.nameStem = r.config.nameStem ∧ q.key.IsProper
  | setState _ state => Listing.IsPlain state.status
  | stripIds _ | addUnmanaged _ => False

/-- The container is as the runner made it, and can be listed. -/
def Container.IsOrdinary (c : Container) (r : Runner) : Prop :=
  ∃ k, c.IsFor r.config.nameStem k ∧ c.CarriesIds k ∧ k.IsProper ∧
    Listing.IsPlain c.state.status

theorem Container.IsOrdinary.apply {r : Runner} {v : EngineEvent} {s t : ContainerStore}
    (hv : v.IsOrdinary r) (ht : v.apply { store := s } = { store := t })
    (h : ∀ c ∈ s.containers, c.IsOrdinary r) : ∀ c ∈ t.containers, c.IsOrdinary r := by
  intro d hd
  cases EngineEvent.leaves_of_mem ht hd with
  | kept _ hd => exact h d hd
  | started r' q lock task id =>
    obtain ⟨stem, proper⟩ := hv
    refine ⟨q.key, stem ▸ Runner.isFor_container id, Runner.carriesIds_container id, proper, ?_⟩
    change Listing.IsPlain ContainerState.started.status
    rw [Listing.IsPlain]
    decide
  | @changed address state c hc =>
    obtain ⟨k, isFor, ids, proper, -⟩ := h c hc
    exact ⟨k, ⟨isFor.name, isFor.managed, isFor.project, isFor.trajectory⟩,
      ⟨ids.project, ids.trajectory⟩, proper, hv⟩
  | stripped => exact hv.elim
  | added => exact hv.elim

namespace ContainerStore

variable {s : ContainerStore} {names : List String}

/-- The way from an ordinary container to its row, to its job and to a name leads back
    to it. -/
theorem resourceName_of_mem_dueJobs {r : Runner} (apart : s.NamesApart)
    (ordinary : ∀ c ∈ s.containers, c.IsOrdinary r) {x : Container × JobInfo}
    (hx : x ∈ s.dueJobs p present now project) :
    r.resourceName x.2.key = x.1.name ∧ x.1.isDue p present now = true := by
  obtain ⟨hjob, due⟩ := List.mem_filter.1 hx
  obtain ⟨row, hrow, told⟩ := mem_jobs.1 hjob
  obtain ⟨hc, -, hrow⟩ := mem_rows.1 hrow
  obtain ⟨k, isFor, ids, proper, status⟩ := ordinary x.1 hc
  have listable := isFor.isListable ids proper.project.isPlain proper.trajectory.isPlain status
  rw [InMemory.rows_of_isListable listable] at hrow
  obtain rfl : row = x.1.listed := List.mem_singleton.1 (List.mem_filter.1 hrow).1
  have job : x.1.job? present = some x.2 := by
    rw [← told, job?_of_mem apart hc rfl]
    rfl
  obtain ⟨state, -, hj⟩ := Option.map_eq_some_iff.1 job
  have key : x.2.key = k := by
    rw [← hj, ListedContainer.job, (ids.listed_key proper).1]
  refine ⟨?_, ?_⟩
  · rw [key, isFor.name]
    rfl
  · rw [Container.isDue, job]
    exact due

/-! ## What a removal by name takes -/

/-- Each of some containers is gone exactly if it bears one of the names. -/
theorem forall_gone_iff {due : List (Container × JobInfo)} (there : ∀ x ∈ due, x.1 ∈ s.containers) :
    (∀ x ∈ due, x.1 ∉ (s.without names).containers) ↔ ∀ x ∈ due, x.1.name ∈ names := by
  refine forall₂_congr fun x hx => ?_
  rw [mem_without, not_and, not_not]
  exact forall_prop_of_true (there x hx)

/-- What holds of all that is gone is what holds of all that bears one of the names. -/
theorem forall_of_gone_iff {P : Container → Prop} :
    (∀ c ∈ s.containers, c ∉ (s.without names).containers → P c) ↔
      ∀ name ∈ names, ∀ c ∈ s.containers, c.name = name → P c := by
  constructor
  · intro h name hname c hc same
    exact h c hc fun left => (mem_without.1 left).2 (same ▸ hname)
  · intro h c hc gone
    refine h c.name ?_ c hc rfl
    by_contra free
    exact gone (mem_without.2 ⟨hc, free⟩)

/-! ## A second pass -/

/-- When a listing after a removal has no job that is due. -/
theorem ofDue_without_eq_empty_iff :
    ReapReport.ofDue p now (((s.without names).jobs later project).map (·.2)) = {} ↔
      ∀ x ∈ s.rows project, x.1.name ∉ names →
        ∀ j ∈ (s.without names).job? later x.2, p.reason? now j = none := by
  rw [ReapReport.ofDue_eq_empty_iff]
  constructor
  · intro none x hx left j hj
    exact none j (List.mem_map_of_mem (f := (·.2)) (a := (x.1, j))
      (mem_jobs.2 ⟨x.2, mem_rows_without.2 ⟨hx, left⟩, hj⟩))
  · intro none j hj
    obtain ⟨x, hx, rfl⟩ := List.mem_map.1 hj
    obtain ⟨row, hrow, told⟩ := mem_jobs.1 hx
    obtain ⟨hrow, left⟩ := mem_rows_without.1 hrow
    exact none (x.1, row) hrow left x.2 told

/-- An unbroken row leads to its own container, in both listings. So it is due in the
    second one only if it was in the first one. -/
theorem reason?_eq_none_of_left (apart : s.NamesApart) (unbroken : ∀ c ∈ s.containers, c.IsUnbroken)
    (clock : later.nanosBetween now ≤ present.nanosBetween now)
    (gone : ∀ x ∈ s.dueJobs p present now project, x.1.name ∈ names)
    {x : Container × ListedContainer} (hx : x ∈ s.rows project) (left : x.1.name ∉ names)
    {j : JobInfo} (hj : j ∈ (s.without names).job? later x.2) : p.reason? now j = none := by
  obtain ⟨hc, -, hrow⟩ := mem_rows.1 hx
  -- Before and after the removal, the name means this container and no other.
  have name := InMemory.name_of_mem_rows (unbroken x.1 hc) hrow
  rw [job?_of_mem (apart.without names) (mem_without.2 ⟨hc, left⟩) name] at hj
  obtain ⟨state, hstate, rfl⟩ := Option.map_eq_some_iff.1 hj
  by_contra due
  have first := ReapPolicy.isSome_reason?_of_later x.2 state clock
    (Option.isSome_iff_ne_none.2 due)
  have told : (x.1, x.2.job present state) ∈ s.jobs present project := by
    refine mem_jobs.2 ⟨x.2, hx, ?_⟩
    rw [job?_of_mem apart hc name, hstate]
    rfl
  exact left (gone _ (List.mem_filter.2 ⟨told, first⟩))

end ContainerStore

namespace Runner

/-- What a pass does to an engine on which any runners started jobs, whatever their
    configurations and ids, whatever the states of the containers became, and
    whether or not they lost the ids as given. It removes the containers under the
    names that its own runner has for the jobs that are due, and reports those jobs
    as removed. So

    * each container whose row it reports is gone exactly if it bears one of these
      names,
    * it removes only containers that are due exactly if all that bear one of these
      names are,
    * a second pass finds nothing more exactly if no row of a container that is
      left leads to a job that is due. As long as no row is broken, this is so if
      the first pass removed all that it reported.

    All is well if only runners with the name stem of this one started jobs, under ids
    that pass through a listing as they are, and no container lost its ids. -/
theorem reap_replay {events : List EngineEvent} (managed : ∀ v ∈ events, v.IsManaged)
    (r : Runner) (p : ReapPolicy) (present now later : Instant) (project : Option String)
    (lock : StartLock) :
    let before := (InMemory.replay events).store
    let pass := (r.reap p present now project).run InMemory.engine (InMemory.replay events) lock
    let after := pass.engine.store
    let second := (r.reap p later now project).run InMemory.engine pass.engine pass.lock
    let due := before.dueJobs p present now project
    pass.value = .ofDue p now ((before.jobs present project).map (·.2)) ∧
    pass.engine = { store := before.without (due.map fun x => r.resourceName x.2.key) } ∧
    ((∀ x ∈ due, x.1 ∉ after.containers) ↔
      ∀ x ∈ due, ∃ y ∈ due, r.resourceName y.2.key = x.1.name) ∧
    ((∀ c ∈ before.containers, c ∉ after.containers → c.isDue p present now = true) ↔
      ∀ x ∈ due, ∀ c ∈ before.containers, c.name = r.resourceName x.2.key →
        c.isDue p present now = true) ∧
    (second.value = {} ↔
      ∀ x ∈ before.rows project, (∀ y ∈ due, r.resourceName y.2.key ≠ x.1.name) →
        ∀ j ∈ after.job? later x.2, p.reason? now j = none) ∧
    ((∀ v ∈ events, v.IsUnbroken) → later.nanosBetween now ≤ present.nanosBetween now →
      (∀ x ∈ due, x.1 ∉ after.containers) → second.value = {}) ∧
    ((∀ v ∈ events, v.IsOrdinary r) → (∀ x ∈ due, x.1 ∉ after.containers) ∧
      ∀ c ∈ before.containers, c ∉ after.containers → c.isDue p present now = true) := by
  obtain ⟨s, hs, -, apart⟩ := InMemory.replay_induction
    ContainerStore.namesApart_empty (fun v s t => ContainerStore.NamesApart.apply) managed
  rw [hs]
  intro before pass after second due
  set names := due.map fun x => r.resourceName x.2.key
  have mem_names {name : String} : name ∈ names ↔ ∃ y ∈ due, r.resourceName y.2.key = name :=
    List.mem_map
  obtain ⟨report, left⟩ := InMemory.reapPass_run r p present now project apart lock
  have hafter : after = s.without names := congrArg InMemory.store left
  have hsecond :
      second.value = .ofDue p now (((s.without names).jobs later project).map (·.2)) := by
    have next := (InMemory.reapPass_run r p later now project (apart.without names) pass.lock).1
    rwa [← show pass.engine = _ from left] at next
  have gone : (∀ x ∈ due, x.1 ∉ after.containers) ↔ ∀ x ∈ due, x.1.name ∈ names := by
    rw [hafter]
    exact ContainerStore.forall_gone_iff fun x => ContainerStore.mem_containers_of_mem_dueJobs
  have only : (∀ c ∈ s.containers, c ∉ after.containers → c.isDue p present now = true) ↔
      ∀ x ∈ due, ∀ c ∈ s.containers, c.name = r.resourceName x.2.key →
        c.isDue p present now = true := by
    rw [hafter, ContainerStore.forall_of_gone_iff]
    exact List.forall_mem_map
  refine ⟨report, left, ?_, only, ?_, ?_, ?_⟩
  · simp only [gone, mem_names]
  · rw [hsecond, ContainerStore.ofDue_without_eq_empty_iff, hafter]
    simp only [mem_names, not_exists, not_and, ne_eq]
    rfl
  · -- The same history has unbroken rows, which lead to their own containers.
    intro plain clock removed
    obtain ⟨t, ht, -, unbroken⟩ := InMemory.replay_induction
      (by simp) (fun v s t => Container.IsUnbroken.apply) plain
    obtain rfl : s = t := congrArg InMemory.store (hs.symm.trans ht)
    rw [hsecond, ContainerStore.ofDue_without_eq_empty_iff]
    exact fun x hx free j hj =>
      ContainerStore.reason?_eq_none_of_left apart unbroken clock (gone.1 removed) hx free hj
  · -- Each name that is removed leads back to the one container whose row told it.
    intro ordinary
    obtain ⟨t, ht, -, own⟩ := InMemory.replay_induction
      (by simp) (fun v s t => Container.IsOrdinary.apply) ordinary
    obtain rfl : s = t := congrArg InMemory.store (hs.symm.trans ht)
    have back {x : Container × JobInfo} (hx : x ∈ due) :=
      ContainerStore.resourceName_of_mem_dueJobs apart own hx
    refine ⟨gone.2 fun x hx => mem_names.2 ⟨x, hx, (back hx).1⟩, only.2 fun x hx c hc name => ?_⟩
    have hcx : c = x.1 := apart.distinct.eq_of_name hc (ContainerStore.mem_containers_of_mem_dueJobs hx)
      (name.trans (back hx).1)
    rw [hcx]
    exact (back hx).2

/-- Two jobs whose project ids have the same label. The container of the first one
    loses the ids as given, and then ends. -/
def sampleMixup : List EngineEvent :=
  let name := Runner.sample.resourceName ⟨"Lens", "run-1"⟩
  [.start .sample (sampleRequest ⟨"Lens", "run-1"⟩) .fresh,
    .start .sample (sampleRequest ⟨"lens", "run-1"⟩) .fresh,
    .stripIds name, .setState name (.exited 0)]

theorem isManaged_sampleMixup : ∀ v ∈ sampleMixup, v.IsManaged := by
  simp only [sampleMixup, List.mem_cons, List.not_mem_nil, or_false]
  rintro v (rfl | rfl | rfl | rfl) <;> exact trivial

/-- Ten minutes later. -/
def sampleNow : Instant := { second := 1714558200, nano := 0 }

/-- The names can be computed: that of the running container is among those that a pass
    removes, for it is the name of the job that the row of the other one tells. -/
theorem name_mem_sampleMixup :
    let before := (InMemory.replay sampleMixup).store
    let due := before.dueJobs ⟨10, 3600⟩ sampleNow sampleNow none
    ∃ c ∈ before.containers, c.state = .started ∧
      c.isDue ⟨10, 3600⟩ sampleNow sampleNow = false ∧
      c.name ∈ due.map fun x => sample.resourceName x.2.key := by
  decide +kernel

/-- After a pass the running container of the second job is gone, though it was not
    due. -/
theorem reap_replay_sampleMixup :
    let before := (InMemory.replay sampleMixup).store
    let due := before.dueJobs ⟨10, 3600⟩ sampleNow sampleNow none
    let pass := (sample.reap ⟨10, 3600⟩ sampleNow sampleNow none).run InMemory.engine
      (InMemory.replay sampleMixup) .always
    (∀ v ∈ sampleMixup, v.IsManaged) ∧
      pass.value = .ofDue ⟨10, 3600⟩ sampleNow ((before.jobs sampleNow none).map (·.2)) ∧
      pass.engine = { store := before.without (due.map fun x => sample.resourceName x.2.key) } ∧
      ∃ c ∈ before.containers, c.state = .started ∧
        c.isDue ⟨10, 3600⟩ sampleNow sampleNow = false ∧ c ∉ pass.engine.store.containers := by
  obtain ⟨report, left, -⟩ := reap_replay isManaged_sampleMixup sample ⟨10, 3600⟩ sampleNow
    sampleNow sampleNow none .always
  obtain ⟨c, hc, runs, notDue, name⟩ := name_mem_sampleMixup
  refine ⟨isManaged_sampleMixup, report, left, c, hc, runs, notDue, fun there => ?_⟩
  rw [left] at there
  exact (ContainerStore.mem_without.1 there).2 name

end Runner

end ContainerJobs
