import ContainerJobs.Proofs.Engine.Control
import ContainerJobs.Proofs.Engine.Starting
import ContainerJobs.Proofs.Runner.Operation

/-!
# Identities of containers

What is always true of the containers of an engine in memory that one runner works
with, whatever the runner is asked for, whatever succeeds or fails, and whatever is
done to the engine from outside (`Runner.Reaches`): names and ids tell the containers
apart, the older one has the smaller id, and a container of a job has the name that
follows from the ids on its labels (`Runner.Reaches.identifies`).

Every single command keeps this (`ContainerStore.IsKeyed.command`), so it does not
matter where an operation is broken off.
-/

namespace ContainerJobs

theorem Container.CarriesIds.unique {c : Container} {k k' : JobKey} (h : c.CarriesIds k)
    (h' : c.CarriesIds k') : k = k' := by
  obtain ⟨project, trajectory⟩ := k
  obtain ⟨project', trajectory'⟩ := k'
  rw [JobKey.mk.injEq]
  exact ⟨Option.some.inj (h.project.symm.trans h'.project),
    Option.some.inj (h.trajectory.symm.trans h'.trajectory)⟩

namespace ContainerStore

/-- Names tell the containers apart, and those of jobs are named after the ids on
    their labels. -/
structure IsKeyed (s : ContainerStore) (stem : String) : Prop where
  /-- No two containers have the same name. -/
  distinct : s.NamesDistinct
  /-- The name of a job's container follows from its labels. -/
  keyed : ∀ c ∈ s.containers, c.hasLabel Label.managed "true" = true →
    ∃ k : JobKey, c.CarriesIds k ∧ c.name = k.resourceName stem

variable {s t : ContainerStore} {stem : String}

theorem isKeyed_empty : IsKeyed {} stem :=
  ⟨namesApart_empty.distinct, by simp⟩

theorem IsKeyed.of_remains (h : s.IsKeyed stem) (ht : t.Remains s) : t.IsKeyed stem where
  distinct := h.distinct.of_isPart ht.isPart
  keyed c hc managed := by
    obtain ⟨d, hd, heq⟩ := ht.exists_mem hc
    obtain ⟨-, name, labels⟩ : d.id = c.id ∧ d.name = c.name ∧ d.labels = c.labels := by
      simpa [Container.identity] using heq
    rw [Container.hasLabel, ← labels] at managed
    obtain ⟨k, ids, hname⟩ := h.keyed d hd managed
    exact ⟨k, ⟨labels ▸ ids.project, labels ▸ ids.trajectory⟩, name ▸ hname⟩

theorem IsKeyed.add (h : s.IsKeyed stem) {f : String → Container} {name : String}
    (hf : ∀ id, (f id).id = id ∧ (f id).name = name)
    (free : ∀ c ∈ s.containers, c.name ≠ name)
    (new : ∀ id, (f id).hasLabel Label.managed "true" = true →
      ∃ k : JobKey, (f id).CarriesIds k ∧ (f id).name = k.resourceName stem) :
    (s.add f).IsKeyed stem where
  distinct := h.distinct.add hf free
  keyed c hc managed := by
    rcases List.mem_append.1 hc with hc | hc
    · exact h.keyed c hc managed
    · rw [List.mem_singleton.1 hc] at managed ⊢
      exact new _ managed

/-- Every command that a runner may ask keeps the containers of jobs named after
    their labels. -/
theorem IsKeyed.command {r : Runner} {args : Command} (allowed : r.MayAsk args) {e : InMemory}
    (h : e.store.IsKeyed r.config.nameStem) :
    (InMemory.engine args e).2.store.IsKeyed r.config.nameStem := by
  have effect := InMemory.engine_effect args e
  generalize (InMemory.engine args e).2 = e' at effect
  cases effect with
  | remains part => exact h.of_remains part
  | @launched name names run named free =>
    -- It is the launch of a job, so its name is that of the job.
    obtain ⟨q, task, rfl⟩ := allowed run
    obtain ⟨rest, values⟩ := r.optionValues_name_launchArgs q task
    obtain ⟨rfl, -⟩ := List.cons.inj (named.symm.trans values)
    exact h.add (fun _ => ⟨rfl, rfl⟩) (fun _ => name_ne_of_find?_eq_none free) fun id _ =>
      ⟨q.key, Runner.carriesIds_container id, (Runner.isFor_container id).name⟩

theorem IsKeyed.control {e : InMemory} {v : InMemory.Control} (fresh : v.IsFresh e)
    (h : e.store.IsKeyed stem) : (v.apply e).store.IsKeyed stem := by
  obtain part | ⟨name, rfl, added⟩ := v.apply_store e
  · exact h.of_remains part
  · rw [added]
    refine h.add (fun _ => ⟨rfl, rfl⟩) fresh.2 fun id managed => ?_
    -- A container that belongs to no job has no labels.
    simp [Container.hasLabel, Assoc.get?] at managed

end ContainerStore

namespace Runner

/-- The engine came about from one without containers by operations of the runner,
    whether they succeeded or not, and by controls. -/
inductive Reaches (r : Runner) : InMemory → Prop where
  | empty : Reaches r {}
  /-- By an operation, under any start lock. -/
  | operation {e : InMemory} (o : Operation) (lock : StartLock) : Reaches r e →
    Reaches r ((r.operate o).run InMemory.engine e lock).engine
  /-- By a control. -/
  | control {e : InMemory} (v : InMemory.Control) : v.IsFresh e → Reaches r e →
    Reaches r (v.apply e)

variable {r : Runner} {e : InMemory}

theorem Reaches.isKeyed (h : r.Reaches e) : e.store.IsKeyed r.config.nameStem := by
  induction h with
  | empty => exact ContainerStore.isKeyed_empty
  | operation o lock _ ih =>
    exact (r.asks_operate o).run (I := fun e : InMemory => e.store.IsKeyed r.config.nameStem)
      (fun _ _ allowed keyed => keyed.command allowed) ih lock
  | control v fresh _ ih => exact ih.control fresh

/-- An engine that is down is left as it is. -/
theorem operate_run_of_isDown (down : e.isDown = true) (o : Operation) (lock : StartLock) :
    ((r.operate o).run InMemory.engine e lock).engine = e :=
  (Dialogue.asks_true (r.operate o)).run (I := fun e' => e' = e)
    (fun c _ _ same => by rw [same, InMemory.engine_of_isDown down]) rfl lock

/-- What tells the containers of an engine apart. -/
structure Identifies (r : Runner) (e : InMemory) : Prop where
  /-- No two containers have the same name. -/
  names : (e.store.containers.map (·.name)).Nodup
  /-- No two containers have the same id. -/
  ids : (e.store.containers.map (·.id)).Nodup
  /-- Ids ascend in the order of the containers, read as numbers. -/
  ascend : e.store.containers.Pairwise fun c d =>
    ContainerStore.idValue c.id < ContainerStore.idValue d.id
  /-- They ascend as texts too, until the numbers need more digits than a short id
      has. -/
  ascend_text : e.store.lastNumber < ContainerStore.shortIdCount →
    e.store.containers.Pairwise fun c d => c.id < d.id
  /-- A container of a job carries the ids of the job, and no others. -/
  carries : ∀ c ∈ e.store.containers, c.hasLabel Label.managed "true" = true →
    ∃! k, c.CarriesIds k
  /-- It has the name that follows from them. -/
  name_eq : ∀ c ∈ e.store.containers, c.hasLabel Label.managed "true" = true →
    ∀ k, c.CarriesIds k → c.name = r.resourceName k
  /-- A job has one container at most. -/
  single : ∀ c ∈ e.store.containers, ∀ d ∈ e.store.containers,
    c.hasLabel Label.managed "true" = true → d.hasLabel Label.managed "true" = true →
    ∀ k, c.CarriesIds k → d.CarriesIds k → c = d
  /-- While the engine is down, no operation of the runner changes anything. -/
  idle : e.isDown = true → ∀ o lock, ((r.operate o).run InMemory.engine e lock).engine = e

/-- Whatever one runner is asked for on an engine in memory, and whatever is done to
    the engine besides, its containers can be told apart. -/
theorem Reaches.identifies (h : r.Reaches e) : r.Identifies e := by
  have keyed := h.isKeyed
  have numbered := keyed.distinct.numbered
  have name_eq : ∀ c ∈ e.store.containers, c.hasLabel Label.managed "true" = true →
      ∀ k, c.CarriesIds k → c.name = r.resourceName k := by
    intro c hc managed k ids
    obtain ⟨k', ids', name⟩ := keyed.keyed c hc managed
    rw [ids.unique ids']
    exact name
  refine {
    names := keyed.distinct.nodup
    ids := numbered.nodup_ids
    ascend := numbered.ascend
    ascend_text := numbered.ascend_text
    carries := fun c hc managed => ?_
    name_eq
    single := fun c hc d hd managed managed' k ids ids' => ?_
    idle := fun down o lock => operate_run_of_isDown down o lock }
  · obtain ⟨k, ids, -⟩ := keyed.keyed c hc managed
    exact ⟨k, ids, fun k' ids' => ids'.unique ids⟩
  · -- Both have the name of the job, and names are distinct.
    refine keyed.distinct.eq_of_name hc hd ?_
    rw [name_eq c hc managed k ids, name_eq d hd managed' k ids']

/-! ## A sample -/

/-- A request for a job. -/
def sampleStart : StartRequest := sampleRequest ⟨"lens", "run-1"⟩

/-- The store of an engine after this request. -/
def sampleStore : ContainerStore :=
  ContainerStore.add {} (sample.container sampleStart { repo := "astro/astropy" })

theorem reaches_sampleStore : sample.Reaches { store := sampleStore } := by
  have free : StartLock.fresh.isHeld (sample.resourceName sampleStart.key) = false := rfl
  obtain ⟨lasting, -⟩ | ⟨-, -, run⟩ := InMemory.start_run ContainerStore.namesApart_empty free
    (q := sampleStart) rfl rfl
  · cases lasting
  · have reached := Reaches.empty.operation (r := sample) (.start sampleStart) .fresh
    rw [operate, Dialogue.run_bind] at reached
    exact run ▸ reached

/-- An engine with the container of a job and one that belongs to no job, which went
    down afterwards. -/
theorem identifies_sampleStore :
    sample.Reaches { store := sampleStore.addUnmanaged "postgres", isDown := true } ∧
      sample.Identifies { store := sampleStore.addUnmanaged "postgres", isDown := true } := by
  have fresh : (InMemory.Control.addUnmanaged "postgres").IsFresh { store := sampleStore } := by
    refine ⟨by decide, fun c hc name => ?_⟩
    obtain rfl := List.mem_singleton.1 hc
    -- The name of a job has a hyphen.
    have hyphen := sampleStart.key.hyphen_mem_resourceName sample.config.nameStem
    rw [← (isFor_container _).name, name] at hyphen
    exact absurd hyphen (by decide)
  have reached := (reaches_sampleStore.control _ fresh).control (.setDown true) trivial
  exact ⟨reached, reached.identifies⟩

end Runner

end ContainerJobs
