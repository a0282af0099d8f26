import ContainerJobs.Proofs.Engine.Effect
import ContainerJobs.Proofs.Engine.Row

/-!
# Stocks of containers

What an engine holds after jobs were started, or containers were added as an
earlier start would have left them, next to containers that belong to no job. A
container of a job may be changed later in any way that a listing can still tell,
and may lose the ids as they were given; it stays one of the job
(`Container.IsJobOf`). In such a stock (`ContainerStore.IsStock`), a container that
belongs to a project as far as its row tells has the label that the engine looks
for (`Container.IsJobOf.isMarkedFor_of_belongsTo`). So the engine hides no row of
the project, and a listing of the project is the listing of all with the other rows
left out. Stocks come about by starts (`ContainerStore.IsStock.start`) and by the other
changes at the end of this file.
-/

namespace ContainerJobs

namespace Container

/-- The container is one of a job, and a listing can tell it. -/
structure IsJobOf (c : Container) (stem : String) (k : JobKey) : Prop extends c.IsFor stem k where
  /-- It carries the ids as they were given, or none. -/
  ids : c.CarriesIds k ∨
    ∀ key ∈ [Label.rawProject, Label.rawTrajectory], Assoc.get? c.labels key = none
  /-- No label that a row tells divides the row. -/
  labels : ∀ key ∈ Label.listed, Listing.IsPlain (c.label key)
  /-- Neither does the state. -/
  status : Listing.IsPlain c.state.status

variable {c d : Container} {stem : String} {k : JobKey}

theorem IsJobOf.isListable (h : c.IsJobOf stem k) : c.IsListable where
  name := h.isValue_name
  labels key hkey := (h.labels key hkey).1
  status := h.status.1
  project := h.label_project ▸ Label.isValue_sanitize _
  trajectory := h.label_trajectory ▸ Label.isValue_sanitize _
  fields key hkey := (h.labels key hkey).2
  statusField := h.status.2

/-- A container that carries the ids of its job is one of it, unless something in the
    ids or its state is in the way of a listing. -/
theorem IsFor.isJobOf (h : c.IsFor stem k) (carries : c.CarriesIds k)
    (project : Listing.IsPlain k.project) (trajectory : Listing.IsPlain k.trajectory)
    (status : Listing.IsPlain c.state.status) : c.IsJobOf stem k where
  toIsFor := h
  ids := .inl carries
  labels key hkey :=
    let listable := h.isListable carries project trajectory status
    ⟨listable.labels key hkey, listable.fields key hkey⟩
  status

theorem IsJobOf.hyphen_mem_name (h : c.IsJobOf stem k) : '-' ∈ c.name.toList :=
  h.name ▸ k.hyphen_mem_resourceName stem

/-- A row that tells ids as they were given tells those of the job, but for blanks at
    their ends. -/
theorem IsJobOf.key_listed_of_hasRawIds (h : c.IsJobOf stem k)
    (raw : c.listed.hasRawIds = true) : c.listed.key.project = Text.trim k.project := by
  obtain carries | lost := h.ids
  · rw [Container.key_listed_of_hasRawIds raw, listedIds, carries.label_rawProject]
  · -- Without the labels there are no such ids.
    have missing : c.label Label.rawProject = "" := by
      rw [label, lost Label.rawProject (by decide), Option.getD_none]
    have blank : c.listedIds.project = "" := by
      rw [listedIds, missing]
      exact (by decide : Text.trim "" = "")
    rw [hasRawIds_listed, blank] at raw
    cases raw

/-- What belongs to a project bears the label of the project. -/
theorem IsJobOf.isMarkedFor_of_belongsTo (h : c.IsJobOf stem k) {project : String}
    (belongs : c.listed.belongsTo project = true) : c.isMarkedFor (some project) = true := by
  rw [h.isMarkedFor, beq_iff_eq]
  rw [ListedContainer.belongsTo] at belongs
  split at belongs
  · next raw =>
    -- Blanks at the ends of an id make no difference to its label.
    rw [beq_iff_eq, h.key_listed_of_hasRawIds raw] at belongs
    rw [← belongs, Label.sanitize_trim]
  · next raw =>
    rwa [key_listed_of_not_hasRawIds raw, h.label_project, beq_iff_eq] at belongs

theorem IsJobOf.isListedFor (h : c.IsJobOf stem k) (project : Option String) :
    c.isListedFor project = project.all c.listed.belongsTo := by
  cases project with
  | none =>
    rw [Container.isListedFor, isMarkedFor, h.hasLabel_managed]
    rfl
  | some project =>
    rw [Container.isListedFor, Option.all_some, Bool.and_eq_right_iff_imp]
    exact h.isMarkedFor_of_belongsTo

/-! ## Where they come from -/

/-- A container with the labels of a job, under the name of the job, is one of it. -/
theorem isJobOf_of_labels (name : c.name = k.resourceName stem)
    (labels : c.labels = Assoc.ofPairs k.labels) (project : Listing.IsPlain k.project)
    (trajectory : Listing.IsPlain k.trajectory) (status : Listing.IsPlain c.state.status) :
    c.IsJobOf stem k := by
  have told {key value : String} (h : (key, value) ∈ k.labels) :
      Assoc.get? c.labels key = some value := by
    rw [labels, Assoc.get?_ofPairs, JobKey.lookup_reverse_labels h]
  have isFor : c.IsFor stem k :=
    ⟨name, told (by simp [JobKey.labels]), told (by simp [JobKey.labels]),
      told (by simp [JobKey.labels])⟩
  have carries : c.CarriesIds k :=
    ⟨told (by simp [JobKey.labels]), told (by simp [JobKey.labels])⟩
  exact isFor.isJobOf carries project trajectory status

/-- It stays one of the job whatever becomes of its state and its output. -/
theorem IsJobOf.of_labels_eq (h : c.IsJobOf stem k) (name : d.name = c.name)
    (labels : d.labels = c.labels) (status : Listing.IsPlain d.state.status) :
    d.IsJobOf stem k where
  name := name.trans h.name
  managed := labels ▸ h.managed
  project := labels ▸ h.project
  trajectory := labels ▸ h.trajectory
  ids := h.ids.imp (fun carries => ⟨labels ▸ carries.project, labels ▸ carries.trajectory⟩)
    fun lost key hkey => labels ▸ lost key hkey
  labels key hkey := by
    rw [label, labels]
    exact h.labels key hkey
  status

/-- It stays one of the job when it loses the ids as they were given. -/
theorem IsJobOf.withoutRawIds (h : c.IsJobOf stem k) : c.withoutRawIds.IsJobOf stem k where
  name := h.name
  managed := by rw [get?_withoutRawIds, if_neg (by decide), h.managed]
  project := by rw [get?_withoutRawIds, if_neg (by decide), h.project]
  trajectory := by rw [get?_withoutRawIds, if_neg (by decide), h.trajectory]
  ids := .inr fun key hkey => by
    rw [get?_withoutRawIds, if_pos (by simpa using hkey)]
  labels key hkey := by
    rw [label_withoutRawIds]
    split
    · exact ⟨by simp, by simp⟩
    · exact h.labels key hkey
  status := h.status

end Container

namespace Runner

variable {r : Runner} {q : StartRequest}

theorem isJobOf_container (project : Listing.IsPlain q.key.project)
    (trajectory : Listing.IsPlain q.key.trajectory) (task : TaskInstance) (id : String) :
    (r.container q task id).IsJobOf r.config.nameStem q.key :=
  (isFor_container id).isJobOf (carriesIds_container id) project trajectory
    (show Listing.IsPlain ContainerState.started.status from ⟨by decide, by decide⟩)

end Runner

/-! ## Stocks -/

/-- The containers have distinct names, and each is one of a job, or is not marked as
    such. -/
structure ContainerStore.IsStock (s : ContainerStore) : Prop where
  /-- No two containers have the same name. -/
  distinct : s.NamesDistinct
  /-- What is marked as the container of a job is one of it. -/
  jobs : ∀ c ∈ s.containers, c.hasLabel Label.managed "true" = true →
    ∃ stem k, c.IsJobOf stem k

namespace ContainerStore

variable {s : ContainerStore}

section

variable (h : s.IsStock) {c : Container} (hc : c ∈ s.containers)
  (managed : c.hasLabel Label.managed "true" = true)

include h hc managed

theorem IsStock.isListable : c.IsListable := by
  obtain ⟨_, _, job⟩ := h.jobs c hc managed
  exact job.isListable

theorem IsStock.hyphen_mem_name : '-' ∈ c.name.toList := by
  obtain ⟨_, _, job⟩ := h.jobs c hc managed
  exact job.hyphen_mem_name

theorem IsStock.lineFeed_not_mem : '\n' ∉ (c.label Label.rawProject).toList :=
  (h.isListable hc managed).labels _ (by decide)

end

/-- Short ids tell the containers apart, as long as there are few enough and none that is
    not marked has a name that an id begins with. -/
theorem IsStock.shortIdsApart (h : s.IsStock) (few : s.lastNumber < shortIdCount)
    (names : ∀ c ∈ s.containers, c.hasLabel Label.managed "true" = false →
      ∀ n, ¬ c.name.toList <+: (idOf n).toList) : s.ShortIdsApart where
  numbered := h.distinct.numbered
  few
  names c hc n pre := by
    cases managed : c.hasLabel Label.managed "true" with
    | false => exact names c hc managed n pre
    | true => exact hyphen_not_mem_idOf n (pre.subset (h.hyphen_mem_name hc managed))

/-- The engine hides no row that belongs to the project. -/
theorem IsStock.isListedFor (h : s.IsStock) {c : Container} (hc : c ∈ s.containers)
    (project : Option String) : c.isListedFor project =
      (project.all c.listed.belongsTo && c.hasLabel Label.managed "true") := by
  cases managed : c.hasLabel Label.managed "true" with
  | false =>
    rw [Container.isListedFor, Container.isMarkedFor, managed, Bool.false_and, Bool.false_and,
      Bool.and_false]
  | true =>
    obtain ⟨_, _, job⟩ := h.jobs c hc managed
    rw [job.isListedFor, Bool.and_true]

theorem IsStock.rows_eq (h : s.IsStock) (project : Option String) : s.rows project =
    (s.containers.filter (·.isListedFor project)).map fun c => (c, c.listed) :=
  InMemory.rows_of_forall_isListable (fun _ => h.isListable) project

theorem IsStock.jobs_eq (h : s.IsStock) (present : Instant) (project : Option String) :
    s.jobs present project = (s.containers.filter (·.isListedFor project)).filterMap fun c =>
      (c.job? present).map (c, ·) :=
  InMemory.jobs_of_forall_isListable h.distinct (fun _ => h.isListable)
    (fun _ => h.hyphen_mem_name) present project

/-! ## How stocks come about -/

theorem isStock_empty : IsStock {} :=
  ⟨namesApart_empty.distinct, by simp⟩

/-- A container is added under a name that no container has. -/
theorem IsStock.add (h : s.IsStock) {f : String → Container} {name : String}
    (hf : ∀ id, (f id).id = id ∧ (f id).name = name) (free : ∀ c ∈ s.containers, c.name ≠ name)
    (job : ∀ id, (f id).hasLabel Label.managed "true" = true → ∃ stem k, (f id).IsJobOf stem k) :
    (s.add f).IsStock where
  distinct := h.distinct.add hf free
  jobs c hc := by
    rcases List.mem_append.1 hc with hc | hc
    · exact h.jobs c hc
    · exact List.mem_singleton.1 hc ▸ job _

theorem IsStock.addJob (h : s.IsStock) {stem : String} {k : JobKey} {state : ContainerState}
    (free : ∀ c ∈ s.containers, c.name ≠ k.resourceName stem)
    (project : Listing.IsPlain k.project) (trajectory : Listing.IsPlain k.trajectory)
    (status : Listing.IsPlain state.status) :
    (s.addJob (k.resourceName stem) k state).IsStock :=
  h.add (fun _ => ⟨rfl, rfl⟩) free fun _ _ =>
    ⟨stem, k, Container.isJobOf_of_labels rfl rfl project trajectory status⟩

theorem IsStock.addUnmanaged (h : s.IsStock) {name : String}
    (free : ∀ c ∈ s.containers, c.name ≠ name) : (s.addUnmanaged name).IsStock :=
  h.add (fun _ => ⟨rfl, rfl⟩) free fun _ managed => by
    simp [Container.hasLabel, Assoc.get?] at managed

/-- A container is changed, and stays what it is. -/
theorem IsStock.modify (h : s.IsStock) (address : String) {f : Container → Container}
    (hf : ∀ c, ((f c).id, (f c).name) = (c.id, c.name))
    (job : ∀ c stem k, c.IsJobOf stem k → (f c).IsJobOf stem k)
    (unmarked : ∀ c, (f c).hasLabel Label.managed "true" = c.hasLabel Label.managed "true") :
    (s.modify address f).IsStock where
  distinct := h.distinct.of_isPart (isPart_modify s address hf)
  jobs d hd managed := by
    obtain hd | ⟨c, hc, rfl⟩ := mem_modifyFirst hd
    · exact h.jobs d hd managed
    · obtain ⟨stem, k, hk⟩ := h.jobs c hc (unmarked c ▸ managed)
      exact ⟨stem, k, job c stem k hk⟩

/-- A container gets another state or another output, or its state cannot be read any
    more. -/
theorem IsStock.change (h : s.IsStock) (address : String) {f : Container → Container}
    (hf : ∀ c, (f c).identity = c.identity)
    (status : ∀ c, Listing.IsPlain c.state.status → Listing.IsPlain (f c).state.status) :
    (s.modify address f).IsStock := by
  have name (c : Container) : (f c).name = c.name := congrArg (·.2.1) (hf c)
  have labels (c : Container) : (f c).labels = c.labels := congrArg (·.2.2) (hf c)
  refine h.modify address (fun c => ?_) (fun c stem k job => ?_) fun c => ?_
  · rw [name c, show (f c).id = c.id from congrArg Prod.fst (hf c)]
  · exact job.of_labels_eq (name c) (labels c) (status c job.status)
  · rw [Container.hasLabel, labels c, Container.hasLabel]

/-- A container loses the ids as they were given. -/
theorem IsStock.stripIds (h : s.IsStock) (address : String) :
    (s.modify address Container.withoutRawIds).IsStock :=
  h.modify address (fun _ => rfl) (fun _ _ _ => Container.IsJobOf.withoutRawIds) fun c => by
    rw [Container.hasLabel, Container.get?_withoutRawIds]
    rfl

/-- Containers are taken away. -/
theorem IsStock.filter (h : s.IsStock) (p : Container → Bool) :
    IsStock { s with containers := s.containers.filter p } where
  distinct := h.distinct.of_isPart (isPart_filter s p)
  jobs c hc := h.jobs c (List.mem_filter.1 hc).1

theorem IsStock.erase (h : s.IsStock) (address : String) : (s.erase address).IsStock where
  distinct := h.distinct.of_isPart (isPart_erase s address)
  jobs c hc := h.jobs c (List.eraseP_subset hc)

/-- A start, of whatever outcome, leaves a stock of a stock. -/
theorem IsStock.start (h : s.IsStock) (r : Runner) {q : StartRequest}
    (project : Listing.IsPlain q.key.project) (trajectory : Listing.IsPlain q.key.trajectory)
    (lock : StartLock) :
    ∃ t, ((r.start q).run InMemory.engine { store := s } lock).engine = { store := t } ∧
      t.IsStock := by
  obtain ⟨u, left, run⟩ := InMemory.start_cases r q s lock
  have stock : u.IsStock := by
    obtain rfl | rfl := left
    exacts [h, h.erase _]
  obtain run | ⟨task, free, run⟩ := run
  · exact ⟨u, run, stock⟩
  · refine ⟨_, run, stock.add (fun _ => ⟨rfl, rfl⟩) (fun c hc => name_ne_of_find?_eq_none free hc)
      fun id _ => ⟨_, _, Runner.isJobOf_container project trajectory task id⟩⟩

end ContainerStore

end ContainerJobs
