import ContainerJobs.Proofs.Engine.History
import ContainerJobs.Proofs.Engine.Row

/-!
# Whom a bulk cancel hits

The labels by which an engine finds the containers of a project are lossy, so a
bulk cancel compares the project ids as they were given. It trims them first, and
takes a blank id for a missing one. What it removes after any history of starts is
`Container.isTakenFor`: the jobs of the projects whose ids, without the blanks at
their ends, are the given one, and those of blank ids if the given id has the
label that they have (`cancelProject_replay`). That these are the jobs of the
project with this very id is so exactly if no id in the way has blanks at its ends
(`Container.isTakenFor_eq_isOfProject_iff`).
-/

namespace ContainerJobs

namespace Container

variable {c : Container} {stem project : String} {k : JobKey}

/-- The container belongs to a job of the project with this very id. -/
def isOfProject (c : Container) (project : String) : Bool :=
  c.hasLabel Label.managed "true" && c.hasLabel Label.rawProject project

/-- The container belongs to a job of a project that a bulk cancel takes for the
    given one. -/
def isTakenFor (c : Container) (project : String) : Bool :=
  c.hasLabel Label.managed "true" &&
    (Text.trim (c.label Label.rawProject) == project ||
      (Text.trim (c.label Label.rawProject) == "" && Label.sanitize project == "x"))

/-- The label of the project makes no difference to a bulk cancel, except where
    the id is blank. -/
theorem isCanceledWith_eq (h : c.IsFor stem k) (hk : c.CarriesIds k) (project : String) :
    c.isCanceledWith project = c.isTakenFor project := by
  simp only [isCanceledWith, h.isMarkedFor, isTakenFor, h.hasLabel_managed,
    hk.label_rawProject, Bool.true_and]
  rw [Bool.eq_iff_iff]
  simp only [Bool.and_eq_true, Bool.or_eq_true, beq_iff_eq]
  constructor
  · -- A blank id has the label `x`, and equal ids have equal labels.
    rintro ⟨same, blank | given⟩
    · exact .inr ⟨blank, same ▸ Label.sanitize_of_trim_eq_empty blank⟩
    · exact .inl given
  · rintro (given | ⟨blank, x⟩)
    · exact ⟨by rw [← given, Label.sanitize_trim], .inr given⟩
    · exact ⟨by rw [x, Label.sanitize_of_trim_eq_empty blank], .inl blank⟩

theorem isCanceledWith_of_unlabeled (h : c.labels = []) (project : String) :
    c.isCanceledWith project = c.isTakenFor project := by
  have unmanaged : c.hasLabel Label.managed "true" = false := by
    rw [hasLabel, h]
    rfl
  simp [isCanceledWith, isMarkedFor, isTakenFor, unmanaged]

/-- Where the ids are compared as they should be. -/
theorem isTakenFor_eq_isOfProject_iff (hk : c.CarriesIds k)
    (managed : c.hasLabel Label.managed "true" = true) :
    c.isTakenFor project = c.isOfProject project ↔
      (k.project ≠ project → Text.trim k.project ≠ project ∧
        (Text.trim k.project = "" → Label.sanitize project ≠ "x")) ∧
      (k.project = project → Text.trim project = project ∨ Text.trim project = "") := by
  have raw : c.hasLabel Label.rawProject project = (k.project == project) := by
    simp [hasLabel, hk.project]
  simp only [isTakenFor, isOfProject, managed, raw, hk.label_rawProject, Bool.true_and]
  rw [Bool.eq_iff_iff]
  simp only [Bool.or_eq_true, Bool.and_eq_true, beq_iff_eq]
  by_cases same : k.project = project
  · -- Of the jobs of the project itself, one can only be missed.
    subst same
    simp only [ne_eq, not_true_eq_false, false_implies, true_and, true_implies, iff_true]
    refine or_congr_right ⟨And.left, fun blank => ⟨blank, Label.sanitize_of_trim_eq_empty blank⟩⟩
  · simp [same]

end Container

/-! ## Histories -/

/-- The event is the start of a job whose project id has no line feed, or adds a
    container whose name no id begins with. -/
def EngineEvent.IsForeseen : EngineEvent → Prop
  | start _ q _ => '\n' ∉ q.key.project.toList
  | addUnmanaged name => ∀ n, ¬ name.toList <+: (ContainerStore.idOf n).toList
  | _ => False

namespace ContainerStore

variable {s : ContainerStore}

/-- What a bulk cancel relies on. -/
structure IsCancelable (s : ContainerStore) : Prop where
  /-- The ids are made from numbers. -/
  numbered : s.Numbered
  /-- No name is taken for an id. -/
  names : ∀ c ∈ s.containers, ∀ n, ¬ c.name.toList <+: (idOf n).toList
  /-- A container belongs to no job, or carries the ids of its job. -/
  jobs : ∀ c ∈ s.containers, c.labels = [] ∨
    ∃ stem k, c.IsFor stem k ∧ c.CarriesIds k ∧ '\n' ∉ k.project.toList

theorem isCancelable_empty : IsCancelable {} :=
  ⟨numbered_empty, by simp, by simp⟩

theorem IsCancelable.apply {v : EngineEvent} {t : ContainerStore} (hv : v.IsForeseen)
    (ht : v.apply { store := s } = { store := t }) (h : s.IsCancelable) : t.IsCancelable where
  numbered := h.numbered.apply ht
  names c hc := by
    cases EngineEvent.leaves_of_mem ht hc with
    | kept _ hc => exact h.names c hc
    | started r q lock task id =>
      intro n pre
      exact hyphen_not_mem_idOf n (pre.subset (q.key.hyphen_mem_resourceName r.config.nameStem))
    | changed => exact hv.elim
    | stripped => exact hv.elim
    | added named => exact named ▸ hv
  jobs c hc := by
    cases EngineEvent.leaves_of_mem ht hc with
    | kept _ hc => exact h.jobs c hc
    | started r q lock task id =>
      exact .inr ⟨_, q.key, Runner.isFor_container id, Runner.carriesIds_container id, hv⟩
    | changed => exact hv.elim
    | stripped => exact hv.elim
    | added _ unlabeled => exact .inl unlabeled

theorem IsCancelable.shortIdsApart (h : s.IsCancelable) (few : s.lastNumber < shortIdCount) :
    s.ShortIdsApart :=
  ⟨h.numbered, few, h.names⟩

theorem IsCancelable.lineFeed_not_mem (h : s.IsCancelable) {c : Container}
    (hc : c ∈ s.containers) : '\n' ∉ (c.label Label.rawProject).toList := by
  obtain unlabeled | ⟨stem, k, -, ids, plain⟩ := h.jobs c hc
  · rw [Container.label, unlabeled]
    simp [Assoc.get?]
  · rwa [ids.label_rawProject]

theorem IsCancelable.isCanceledWith_eq (h : s.IsCancelable) {c : Container}
    (hc : c ∈ s.containers) (project : String) :
    c.isCanceledWith project = c.isTakenFor project := by
  obtain unlabeled | ⟨stem, k, isFor, ids, -⟩ := h.jobs c hc
  · exact Container.isCanceledWith_of_unlabeled unlabeled project
  · exact Container.isCanceledWith_eq isFor ids project

/-- A container that is marked as that of a job carries its ids. -/
theorem IsCancelable.carriesIds (h : s.IsCancelable) {c : Container} (hc : c ∈ s.containers)
    (managed : c.hasLabel Label.managed "true" = true) : ∃ k, c.CarriesIds k := by
  obtain unlabeled | ⟨stem, k, -, ids, -⟩ := h.jobs c hc
  · rw [Container.hasLabel, unlabeled] at managed
    simp [Assoc.get?] at managed
  · exact ⟨k, ids⟩

end ContainerStore

theorem filter_not_eq_filter_not_iff {α : Type} {p q : α → Bool} {l : List α} :
    (l.filter fun a => !p a) = l.filter (fun a => !q a) ↔ ∀ a ∈ l, p a = q a := by
  constructor
  · intro h a ha
    have hmem : a ∈ l.filter (fun a => !p a) ↔ a ∈ l.filter fun a => !q a := by rw [h]
    simpa [ha] using hmem
  · exact fun h => List.filter_congr fun a ha => by rw [h a ha]

namespace Dialogue

/-- What a bulk cancel does to an engine on which jobs were started by any runners
    and containers of no jobs were added. It removes the jobs of `isTakenFor` and
    leaves all else as it is. That these are the jobs of the project depends on the
    blanks in its id and in those of the others. -/
theorem cancelProject_replay {events : List EngineEvent} (foreseen : ∀ v ∈ events, v.IsForeseen)
    (few : events.length < ContainerStore.shortIdCount) (project : String) (lock : StartLock) :
    let before := (InMemory.replay events).store
    let after := ((cancelProject project).run InMemory.engine (InMemory.replay events) lock).engine
    after = { store :=
        { before with containers := before.containers.filter fun c => !c.isTakenFor project } } ∧
      (after = { store :=
          { before with containers := before.containers.filter fun c => !c.isOfProject project } } ↔
        ∀ c ∈ before.containers, c.hasLabel Label.managed "true" = true →
          (c.label Label.rawProject ≠ project →
            Text.trim (c.label Label.rawProject) ≠ project ∧
              (Text.trim (c.label Label.rawProject) = "" → Label.sanitize project ≠ "x")) ∧
          (c.label Label.rawProject = project →
            Text.trim project = project ∨ Text.trim project = "")) := by
  obtain ⟨s, hs, last, cancelable⟩ := InMemory.replay_induction
    ContainerStore.isCancelable_empty (fun v s t => ContainerStore.IsCancelable.apply) foreseen
  intro before after
  have effect : after = { store :=
      { s with containers := s.containers.filter fun c => !c.isTakenFor project } } := by
    simp only [after, hs]
    rw [InMemory.cancelProject_run (cancelable.shortIdsApart (Nat.lt_of_le_of_lt last few))
      (fun c hc _ => cancelable.lineFeed_not_mem hc)]
    congr 2
    exact List.filter_congr fun c hc => by rw [cancelable.isCanceledWith_eq hc]
  have store : before = s := by simp only [before, hs]
  rw [effect, store]
  refine ⟨rfl, ?_⟩
  simp only [InMemory.mk.injEq, ContainerStore.mk.injEq, and_true, filter_not_eq_filter_not_iff]
  refine forall₂_congr fun c hc => ?_
  -- Neither filter takes a container that is not marked as that of a job.
  cases managed : c.hasLabel Label.managed "true" with
  | false => simp [Container.isTakenFor, Container.isOfProject, managed]
  | true =>
    obtain ⟨k, ids⟩ := cancelable.carriesIds hc managed
    rw [Container.isTakenFor_eq_isOfProject_iff ids managed, ids.label_rawProject]
    simp

/-- A job of a project whose id ends with a blank, and a container of no job. -/
def sampleHistory : List EngineEvent :=
  [.start .sample (Runner.sampleRequest ⟨"lens ", "run-1"⟩) .fresh, .addUnmanaged "postgres"]

theorem isForeseen_sampleHistory : ∀ v ∈ sampleHistory, v.IsForeseen := by
  have p_not_mem := ContainerStore.not_mem_idOf (c := 'p') (by decide)
  simp only [sampleHistory, List.mem_cons, List.not_mem_nil, or_false]
  rintro v (rfl | rfl)
  · change '\n' ∉ "lens ".toList
    decide
  · exact fun n pre => p_not_mem n (pre.subset (by decide))

/-- A bulk cancel for the project without the blank. -/
theorem cancelProject_replay_sampleHistory :
    (∀ v ∈ sampleHistory, v.IsForeseen) ∧ sampleHistory.length < ContainerStore.shortIdCount ∧
      ((cancelProject "lens").run InMemory.engine (InMemory.replay sampleHistory) .always).engine =
        { store := { (InMemory.replay sampleHistory).store with
            containers := (InMemory.replay sampleHistory).store.containers.filter
              fun c => !c.isTakenFor "lens" } } :=
  ⟨isForeseen_sampleHistory, by decide,
    (cancelProject_replay isForeseen_sampleHistory (by decide) "lens" .always).1⟩

end Dialogue

end ContainerJobs
