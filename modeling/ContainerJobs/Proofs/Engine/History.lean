import ContainerJobs.Proofs.Engine.Starting

/-!
# Histories of engines in memory

What an engine goes through: starts of jobs by any runners, each with a start
lock of its own, and changes from outside. A property of stores that every single
event keeps holds after every history (`InMemory.replay_induction`), and no event
gives more than one id. For names and ids, `InMemory.apply_cases` says what one event
does to a store; for all that is in a container, `EngineEvent.leaves_of_mem` does.
-/

namespace ContainerJobs

/-- What happens to an engine in memory. -/
inductive EngineEvent where
  /-- A runner starts a job, under a start lock. -/
  | start (r : Runner) (q : StartRequest) (lock : StartLock)
  /-- The container of an address, if there is one, gets another state. -/
  | setState (address : String) (state : ContainerState)
  /-- The container of an address, if there is one, loses the ids as given. -/
  | stripIds (address : String)
  /-- A container that belongs to no job is added. -/
  | addUnmanaged (name : String)

/-- The engine after an event. -/
def EngineEvent.apply (e : InMemory) : EngineEvent → InMemory
  | start r q lock => ((r.start q).run InMemory.engine e lock).engine
  | setState address state => (e.modify? address fun c => { c with state }).getD e
  | stripIds address => (e.modify? address Container.withoutRawIds).getD e
  | addUnmanaged name => { e with store := e.store.addUnmanaged name }

/-- The event is one of a container of a job. -/
def EngineEvent.IsManaged : EngineEvent → Prop
  | addUnmanaged _ => False
  | _ => True

namespace InMemory

/-- The engine after a history that begins with no containers. -/
def replay (events : List EngineEvent) : InMemory :=
  events.foldl EngineEvent.apply {}

/-- What one event may do to a store: it takes containers away or changes them, and
    it may add one. A container of a job is added under a name that is free. -/
theorem apply_cases (v : EngineEvent) (s : ContainerStore) :
    ∃ u : ContainerStore, u.IsPart s ∧ (v.apply { store := s } = { store := u } ∨
      ∃ f : String → Container, (∀ id, (f id).id = id) ∧
        v.apply { store := s } = { store := u.add f } ∧
        (v.IsManaged → ∃ name, '-' ∈ name.toList ∧ (∀ id, (f id).name = name) ∧
          u.find? name = none)) := by
  cases v with
  | start r q lock =>
    obtain ⟨u, hu, kept | ⟨task, free, added⟩⟩ := start_cases r q s lock
    -- A removal may come first, whether or not a container is made after it.
    all_goals
      have part : u.IsPart s := by
        rcases hu with rfl | rfl
        · exact .refl u
        · exact ContainerStore.isPart_erase s _
    · exact ⟨u, part, .inl kept⟩
    · exact ⟨u, part, .inr ⟨_, fun _ => rfl, added, fun _ =>
        ⟨r.resourceName q.key, q.key.hyphen_mem_resourceName _, fun _ => rfl, free⟩⟩⟩
  | setState address state =>
    have changed := modify?_getD s address fun c => { c with state }
    refine ⟨_, ?_, .inl changed⟩
    exact ContainerStore.isPart_modify s address fun _ => rfl
  | stripIds address =>
    have changed := modify?_getD s address Container.withoutRawIds
    refine ⟨_, ?_, .inl changed⟩
    exact ContainerStore.isPart_modify s address fun _ => rfl
  | addUnmanaged name =>
    exact ⟨s, .refl s, .inr ⟨_, fun _ => rfl, rfl, fun managed => managed.elim⟩⟩

/-- What each event keeps holds after every history of such events. -/
theorem replay_induction {I : ContainerStore → Prop} {allowed : EngineEvent → Prop}
    (empty : I {})
    (step : ∀ v s t, allowed v → v.apply { store := s } = { store := t } → I s → I t)
    {events : List EngineEvent} (h : ∀ v ∈ events, allowed v) :
    ∃ s, replay events = { store := s } ∧ s.lastNumber ≤ events.length ∧ I s := by
  induction events using List.reverseRecOn with
  | nil => exact ⟨{}, rfl, Nat.le_refl 0, empty⟩
  | append_singleton events v ih =>
    -- The last event meets what the ones before it left.
    obtain ⟨s, hs, last, keeps⟩ := ih fun w hw => h w (List.mem_append_left _ hw)
    have after : replay (events ++ [v]) = v.apply { store := s } := by
      rw [replay, List.foldl_append, ← replay, hs]
      rfl
    obtain ⟨u, part, kept | ⟨f, -, added, -⟩⟩ := apply_cases v s
    · refine ⟨u, after.trans kept, ?_, step v s u (h v (by simp)) kept keeps⟩
      rw [part.last]
      exact last.trans (by simp)
    · refine ⟨u.add f, after.trans added, ?_, step v s _ (h v (by simp)) added keeps⟩
      rw [List.length_append, ContainerStore.add, part.last]
      exact Nat.succ_le_succ last

end InMemory

namespace ContainerStore

variable {v : EngineEvent} {s t : ContainerStore}

theorem Numbered.apply (ht : v.apply { store := s } = { store := t }) (h : s.Numbered) :
    t.Numbered := by
  obtain ⟨u, part, kept | ⟨f, id, added, -⟩⟩ := InMemory.apply_cases v s
  · obtain rfl : u = t := congrArg InMemory.store (kept.symm.trans ht)
    exact h.of_isPart part
  · obtain rfl : u.add f = t := congrArg InMemory.store (added.symm.trans ht)
    exact (h.of_isPart part).add id

/-- As long as all containers are those of jobs, names tell them apart. -/
theorem NamesApart.apply (hv : v.IsManaged) (ht : v.apply { store := s } = { store := t })
    (h : s.NamesApart) : t.NamesApart := by
  obtain ⟨u, part, kept | ⟨f, id, added, job⟩⟩ := InMemory.apply_cases v s
  · obtain rfl : u = t := congrArg InMemory.store (kept.symm.trans ht)
    exact h.of_isPart part
  · obtain rfl : u.add f = t := congrArg InMemory.store (added.symm.trans ht)
    obtain ⟨name, hyphen, named, free⟩ := job hv
    exact (h.of_isPart part).add (fun i => ⟨id i, named i⟩) hyphen free

end ContainerStore

/-! ## Where containers come from -/

/-- The container may be there after an event on a store. -/
inductive EngineEvent.Leaves (s : ContainerStore) : EngineEvent → Container → Prop where
  /-- It was there. -/
  | kept (v : EngineEvent) {c : Container} (hc : c ∈ s.containers) : Leaves s v c
  /-- A runner made it. -/
  | started (r : Runner) (q : StartRequest) (lock : StartLock) (task : TaskInstance)
    (id : String) : Leaves s (.start r q lock) (r.container q task id)
  /-- It was there, in another state. -/
  | changed (address : String) (state : ContainerState) {c : Container}
    (hc : c ∈ s.containers) : Leaves s (.setState address state) { c with state }
  /-- It was there, with the ids as given. -/
  | stripped (address : String) {c : Container} (hc : c ∈ s.containers) :
    Leaves s (.stripIds address) c.withoutRawIds
  /-- It belongs to no job. -/
  | added {name : String} {c : Container} (named : c.name = name) (unlabeled : c.labels = []) :
    Leaves s (.addUnmanaged name) c

theorem EngineEvent.leaves_of_mem {v : EngineEvent} {s t : ContainerStore}
    (ht : v.apply { store := s } = { store := t }) {d : Container} (hd : d ∈ t.containers) :
    v.Leaves s d := by
  obtain rfl : (v.apply { store := s }).store = t := congrArg InMemory.store ht
  cases v with
  | start r q lock =>
    obtain ⟨u, hu, run⟩ := InMemory.start_cases r q s lock
    have sub : ∀ c ∈ u.containers, c ∈ s.containers := by
      rcases hu with rfl | rfl
      · exact fun c hc => hc
      · exact fun c hc => List.eraseP_subset hc
    obtain run | ⟨task, -, run⟩ := run <;> rw [apply, run] at hd
    · exact .kept _ (sub d hd)
    · rcases List.mem_append.1 hd with hd | hd
      · exact .kept _ (sub d hd)
      · rw [List.mem_singleton.1 hd]
        exact .started r q lock task _
  | setState address state =>
    rw [apply, InMemory.modify?_getD] at hd
    obtain hd | ⟨c, hc, rfl⟩ := ContainerStore.mem_modifyFirst hd
    · exact .kept _ hd
    · exact .changed address state hc
  | stripIds address =>
    rw [apply, InMemory.modify?_getD] at hd
    obtain hd | ⟨c, hc, rfl⟩ := ContainerStore.mem_modifyFirst hd
    · exact .kept _ hd
    · exact .stripped address hc
  | addUnmanaged name =>
    rcases List.mem_append.1 hd with hd | hd
    · exact .kept _ hd
    · rw [List.mem_singleton.1 hd]
      exact .added rfl rfl

end ContainerJobs
