import ContainerJobs.Proofs.Container.State
import ContainerJobs.Proofs.Engine.Stock
import ContainerJobs.Proofs.Runner.ProjectCancel

/-!
# The jobs of one project

An engine finds the containers of a project by a label that several projects may
share, and a runner looks at the rows once more. For a stock of containers this
comes to the same as a listing of all jobs with the rows of other projects left out
(`Dialogue.jobs_run_of_isStock`). A bulk cancel looks at the project ids as they were
given, whereas a listing does so only where there is a trajectory id too. So a bulk
cancel passes over containers that a listing tells
(`Dialogue.cancelProject_run_of_isStock`).
-/

namespace ContainerJobs

namespace Container

variable {c : Container} {project : String}

/-- A listing for the project tells the container, but a bulk cancel passes it over:
    there is another project id as given, but no trajectory id. -/
def isSpared (c : Container) (project : String) : Bool :=
  c.isMarkedFor (some project) && (c.listedIds.trajectory == "" &&
    (c.listedIds.project != "" && c.listedIds.project != project))

theorem label_project_of_isMarkedFor (h : c.isMarkedFor (some project) = true) :
    c.label Label.project = Label.sanitize project := by
  have labeled := (Bool.and_eq_true_iff.1 h).2
  rw [Option.all_some, hasLabel, beq_iff_eq] at labeled
  rw [label, labeled, Option.getD_some]

/-- Where a container is marked for a project, its row belongs to the project unless
    it tells another project id as given. -/
theorem belongsTo_of_isMarkedFor (h : c.isMarkedFor (some project) = true) :
    c.listed.belongsTo project = (!c.listed.hasRawIds || c.listedIds.project == project) := by
  cases raw : c.listed.hasRawIds with
  | true =>
    rw [ListedContainer.belongsTo, if_pos raw, key_listed_of_hasRawIds raw]
    rfl
  | false =>
    have label := label_project_of_isMarkedFor h
    have unraw : ¬ c.listed.hasRawIds = true := by rw [raw]; exact Bool.false_ne_true
    rw [ListedContainer.belongsTo, if_neg unraw, key_listed_of_not_hasRawIds unraw, label,
      beq_self_eq_true]
    rfl

theorem isListedFor_eq (c : Container) (project : String) : c.isListedFor (some project) =
    (c.isMarkedFor (some project) && (c.listedIds.project == "" ||
      c.listedIds.trajectory == "" || c.listedIds.project == project)) := by
  cases marked : c.isMarkedFor (some project) with
  | false => rw [isListedFor, marked, Bool.false_and, Bool.false_and]
  | true =>
    rw [isListedFor, marked, Option.all_some, belongsTo_of_isMarkedFor marked, hasRawIds_listed,
      bne, bne, Bool.not_and, Bool.not_not, Bool.not_not]

/-- A bulk cancel takes what a listing tells, except for what it spares. -/
theorem isCanceledWith_eq_isListedFor (c : Container) (project : String) :
    c.isCanceledWith project = (c.isListedFor (some project) && !c.isSpared project) := by
  have ids : Text.trim (c.label Label.rawProject) = c.listedIds.project := rfl
  rw [isListedFor_eq, isCanceledWith, isSpared, ids, bne, bne]
  -- Both tests come down to the same four questions.
  cases c.isMarkedFor (some project) <;> cases c.listedIds.project == "" <;>
    cases c.listedIds.trajectory == "" <;> cases c.listedIds.project == project <;> rfl

theorem isListedFor_of_isSpared (h : c.isSpared project = true) :
    c.isListedFor (some project) = true := by
  obtain ⟨marked, blank, -⟩ : _ ∧ _ ∧ _ := by simpa only [isSpared, Bool.and_eq_true] using h
  rw [isListedFor_eq, marked, blank, Bool.or_true, Bool.true_or, Bool.true_and]

end Container

/-! ## Listings of stocks -/

/-- A container has a job to tell unless its state cannot be read. -/
theorem Container.isSome_job? (c : Container) (present : Instant) :
    (c.job? present).isSome = !c.garbled := by
  rw [job?, Option.isSome_map, isSome_state?_presence]

theorem Container.key_of_job?_eq_some {c : Container} {present : Instant} {j : JobInfo}
    (h : c.job? present = some j) : j.key = c.listed.key := by
  obtain ⟨state, -, rfl⟩ := Option.map_eq_some_iff.1 h
  rfl

/-- The ids of a row, as the labels have them. -/
theorem Container.key_listed (c : Container) : c.listed.key =
    if c.listedIds.project ≠ "" ∧ c.listedIds.trajectory ≠ "" then c.listedIds
    else ⟨c.label Label.project, c.label Label.trajectory⟩ := by
  simp [listed]

namespace ContainerStore

variable {s : ContainerStore}

/-- A listing of one project is the listing of all without the rows that do not belong
    to the project. -/
theorem IsStock.jobs_eq_filter (h : s.IsStock) (present : Instant) (project : Option String) :
    s.jobs present project =
      (s.jobs present none).filter fun x => project.all x.1.listed.belongsTo := by
  rw [h.jobs_eq, h.jobs_eq, filter_filterMap_pair (Container.job? · present) _
    (fun c : Container => project.all c.listed.belongsTo), List.filter_filter]
  congr 1
  refine List.filter_congr fun c hc => ?_
  rw [h.isListedFor hc, h.isListedFor hc, Option.all_none, Bool.true_and]

end ContainerStore

namespace Dialogue

/-- What listings of a stock of containers tell. A listing of all jobs has one entry
    for each container of a job whose state can be read, in their order. The entry
    tells the ids as they were given, without the blanks at their ends, or the
    labels where one of these is missing or blank. A listing of one project has the
    entries of the containers whose rows belong to the project. -/
theorem jobs_run_of_isStock {s : ContainerStore} (h : s.IsStock) (present : Instant)
    (lock : StartLock) :
    let told := fun project =>
      ((jobs present project).run InMemory.engine { store := s } lock).value
    ((listedContainers none).run InMemory.engine { store := s } lock).value =
        (s.containers.filter (·.hasLabel Label.managed "true")).map (·.listed) ∧
      ∃ entries : List (Container × JobInfo),
        entries.map (·.1) = s.containers.filter
          (fun c => c.hasLabel Label.managed "true" && !c.garbled) ∧
        told none = entries.map (·.2) ∧
        (∀ x ∈ entries, x.2.key =
          if x.1.listedIds.project ≠ "" ∧ x.1.listedIds.trajectory ≠ "" then x.1.listedIds
          else ⟨x.1.label Label.project, x.1.label Label.trajectory⟩) ∧
        ∀ project, told (some project) =
          (entries.filter fun x => x.1.listed.belongsTo project).map (·.2) := by
  intro told
  have told_eq (project : Option String) : told project = (s.jobs present project).map (·.2) :=
    (InMemory.jobs_run s present project lock).1
  have all : s.containers.filter (·.isListedFor none) =
      s.containers.filter (·.hasLabel Label.managed "true") :=
    List.filter_congr fun c hc => by rw [h.isListedFor hc, Option.all_none, Bool.true_and]
  refine ⟨?_, s.jobs present none, ?_, told_eq none, ?_, fun project => ?_⟩
  · rw [InMemory.listedContainers_run, h.rows_eq, all, List.map_map]
    rfl
  · rw [h.jobs_eq, map_fst_filterMap_pair, all, List.filter_filter]
    refine List.filter_congr fun c _ => ?_
    rw [c.isSome_job?, Bool.and_comm]
  · intro x hx
    rw [h.jobs_eq, List.mem_filterMap] at hx
    obtain ⟨c, -, hx⟩ := hx
    obtain ⟨j, hj, rfl⟩ := Option.map_eq_some_iff.1 hx
    exact (Container.key_of_job?_eq_some hj).trans (Container.key_listed c)
  · rw [told_eq, h.jobs_eq_filter]
    rfl

/-- A job that was started, has lost its ids as they were given, and is in a state that
    cannot be read. -/
def sampleRemnant : ContainerStore :=
  ((ContainerStore.add {} (Runner.sample.container (Runner.sampleRequest ⟨"lens", "run-1"⟩)
    { repo := "astro/astropy" })).modify (Runner.sample.resourceName ⟨"lens", "run-1"⟩)
      Container.withoutRawIds).modify (Runner.sample.resourceName ⟨"lens", "run-1"⟩)
        fun c => { c with garbled := true }

/-- This job, a container of no job, and one of a job with a blank for its trajectory
    id. -/
def sampleStock : ContainerStore :=
  (sampleRemnant.addUnmanaged "postgres").addJob
    (Runner.sample.resourceName ⟨"Lens", " "⟩) ⟨"Lens", " "⟩ .started

theorem isStock_sampleRemnant : sampleRemnant.IsStock := by
  have started : ContainerStore.IsStock (.add {} (Runner.sample.container
      (Runner.sampleRequest ⟨"lens", "run-1"⟩) { repo := "astro/astropy" })) :=
    ContainerStore.isStock_empty.add (fun _ => ⟨rfl, rfl⟩) (by simp) fun id _ =>
      ⟨_, _, Runner.isJobOf_container ⟨by decide, by decide⟩ ⟨by decide, by decide⟩ _ id⟩
  exact (started.stripIds _).change _ (fun _ => rfl) fun _ => id

theorem name_of_mem_sampleRemnant {c : Container} (hc : c ∈ sampleRemnant.containers) :
    c.name = Runner.sample.resourceName ⟨"lens", "run-1"⟩ := by
  have part : sampleRemnant.IsPart (.add {} (Runner.sample.container
      (Runner.sampleRequest ⟨"lens", "run-1"⟩) { repo := "astro/astropy" })) := by
    refine .trans (ContainerStore.isPart_modify _ _ ?_) (ContainerStore.isPart_modify _ _ ?_)
    all_goals exact fun _ => rfl
  obtain ⟨d, hd, -, name⟩ := part.exists_mem hc
  rw [← name, List.mem_singleton.1 hd]
  rfl

/-- The legible parts of the names differ, so the digests need not be computed. -/
theorem resourceName_sampleStock (stem : String) :
    (⟨"lens", "run-1"⟩ : JobKey).resourceName stem ≠
      (⟨"Lens", " "⟩ : JobKey).resourceName stem := by
  intro same
  have parts := congrArg String.toList same
  have lens : Label.segment 40 "lens" = ['l', 'e', 'n', 's'] := by decide
  have upper : Label.segment 40 "Lens" = ['l', 'e', 'n', 's'] := by decide
  have run : Label.segment 40 "run-1" = ['r', 'u', 'n', '-', '1'] := by decide
  have blank : Label.segment 40 " " = ['x'] := by decide
  simp [JobKey.toList_resourceName, lens, upper, run, blank] at parts

theorem isStock_sampleStock : sampleStock.IsStock := by
  have no_hyphen (k : JobKey) : Runner.sample.resourceName k ≠ "postgres" := fun name => by
    have hyphen := k.hyphen_mem_resourceName Runner.sample.config.nameStem
    rw [show k.resourceName _ = "postgres" from name] at hyphen
    simp at hyphen
  refine (isStock_sampleRemnant.addUnmanaged fun c hc => ?_).addJob (fun c hc => ?_)
    ⟨by decide, by decide⟩ ⟨by decide, by decide⟩ ⟨by decide, by decide⟩
  · rw [name_of_mem_sampleRemnant hc]
    exact no_hyphen _
  · rcases List.mem_append.1 hc with hc | hc
    · rw [name_of_mem_sampleRemnant hc]
      exact resourceName_sampleStock _
    · rw [List.mem_singleton.1 hc]
      exact (no_hyphen _).symm

/-- The listing of the project is the listing of all jobs with rows left out. -/
theorem jobs_run_of_isStock_sampleStock : sampleStock.IsStock ∧
    ∃ entries : List (Container × JobInfo),
      entries.map (·.1) = sampleStock.containers.filter
        (fun c => c.hasLabel Label.managed "true" && !c.garbled) ∧
      ((jobs ⟨1714558200, 0⟩ (some "lens")).run InMemory.engine { store := sampleStock }
        .fresh).value = (entries.filter fun x => x.1.listed.belongsTo "lens").map (·.2) := by
  obtain ⟨-, entries, containers, -, -, told⟩ :=
    jobs_run_of_isStock isStock_sampleStock ⟨1714558200, 0⟩ .fresh
  exact ⟨isStock_sampleStock, entries, containers, told "lens"⟩

/-- What a bulk cancel does to a stock of containers, and what a listing of the project
    tells before and after. The bulk cancel removes the containers whose rows the
    listing has, except for those that it spares; the jobs of these are still listed
    afterwards. -/
theorem cancelProject_run_of_isStock {s : ContainerStore} (h : s.IsStock)
    (few : s.lastNumber < ContainerStore.shortIdCount)
    (names : ∀ c ∈ s.containers, c.hasLabel Label.managed "true" = false →
      ∀ n, ¬ c.name.toList <+: (ContainerStore.idOf n).toList)
    (project : String) (present : Instant) (lock : StartLock) :
    let rows := ((listedContainers (some project)).run InMemory.engine { store := s } lock).value
    let after := ((cancelProject project).run InMemory.engine { store := s } lock).engine
    rows = (s.containers.filter (·.isListedFor (some project))).map (·.listed) ∧
      after = { store :=
        { s with
          containers := s.containers.filter fun c =>
            !c.isListedFor (some project) || c.isSpared project } } ∧
      (after = { store :=
          { s with containers := s.containers.filter fun c => !c.isListedFor (some project) } } ↔
        ∀ c ∈ s.containers, c.isSpared project = false) ∧
      ((jobs present (some project)).run InMemory.engine after lock).value =
        (s.containers.filter (·.isSpared project)).filterMap (·.job? present) := by
  intro rows after
  have removed : after = { store :=
      { s with containers := s.containers.filter fun c => !c.isCanceledWith project } } :=
    InMemory.cancelProject_run (h.shortIdsApart few names) (fun c hc marked =>
      h.lineFeed_not_mem hc (Container.hasLabel_managed_of_isMarkedFor marked)) lock
  have kept : s.containers.filter (fun c => !c.isCanceledWith project) = s.containers.filter
      fun c => !c.isListedFor (some project) || c.isSpared project :=
    List.filter_congr fun c _ => by
      rw [c.isCanceledWith_eq_isListedFor, Bool.not_and, Bool.not_not]
  refine ⟨?_, by rw [removed, kept], ?_, ?_⟩
  · simp only [rows, InMemory.listedContainers_run, h.rows_eq, List.map_map]
    rfl
  · rw [removed]
    simp only [InMemory.mk.injEq, ContainerStore.mk.injEq, and_true, filter_not_eq_filter_not_iff]
    refine forall₂_congr fun c _ => ?_
    rw [c.isCanceledWith_eq_isListedFor]
    cases spared : c.isSpared project with
    | false => simp
    | true => simp [Container.isListedFor_of_isSpared spared]
  · have listed : (s.containers.filter fun c => !c.isCanceledWith project).filter
        (·.isListedFor (some project)) = s.containers.filter (·.isSpared project) := by
      rw [kept, List.filter_filter]
      refine List.filter_congr fun c _ => ?_
      cases spared : c.isSpared project with
      | false => simp
      | true => simp [Container.isListedFor_of_isSpared spared]
    rw [removed, (InMemory.jobs_run _ present (some project) lock).1, (h.filter _).jobs_eq, listed,
      map_snd_filterMap_pair]

theorem isSpared_sampleStock : ∃ c ∈ sampleStock.containers, c.isSpared "lens" = true := by
  refine ⟨_, List.mem_append_right _ List.mem_cons_self, ?_⟩
  decide +kernel

theorem names_sampleStock {c : Container} (hc : c ∈ sampleStock.containers) (n : Nat) :
    ¬ c.name.toList <+: (ContainerStore.idOf n).toList := by
  have job (k : JobKey) (name : c.name = Runner.sample.resourceName k) :
      ¬ c.name.toList <+: (ContainerStore.idOf n).toList := fun pre =>
    ContainerStore.hyphen_not_mem_idOf n (pre.subset (name ▸ k.hyphen_mem_resourceName _))
  rcases List.mem_append.1 hc with hc | hc
  · rcases List.mem_append.1 hc with hc | hc
    · exact job _ (name_of_mem_sampleRemnant hc)
    · rw [List.mem_singleton.1 hc]
      exact fun pre => ContainerStore.not_mem_idOf (c := 'p') (by decide) n
        (pre.subset (by decide))
  · exact job ⟨"Lens", " "⟩ (by rw [List.mem_singleton.1 hc])

/-- A bulk cancel leaves what a listing told before. -/
theorem cancelProject_run_of_isStock_sampleStock : sampleStock.IsStock ∧
    sampleStock.lastNumber < ContainerStore.shortIdCount ∧
    (∀ c ∈ sampleStock.containers, c.hasLabel Label.managed "true" = false →
      ∀ n, ¬ c.name.toList <+: (ContainerStore.idOf n).toList) ∧
    ((cancelProject "lens").run InMemory.engine { store := sampleStock } .fresh).engine ≠
      { store := { sampleStock with containers :=
          sampleStock.containers.filter fun c => !c.isListedFor (some "lens") } } := by
  have few : sampleStock.lastNumber < ContainerStore.shortIdCount :=
    show 3 < ContainerStore.shortIdCount by decide
  obtain ⟨-, -, same_iff, -⟩ := cancelProject_run_of_isStock isStock_sampleStock few
    (fun c hc _ => names_sampleStock hc) "lens" ⟨1714558200, 0⟩ .fresh
  refine ⟨isStock_sampleStock, few, fun c hc _ => names_sampleStock hc, fun same => ?_⟩
  obtain ⟨c, hc, spared⟩ := isSpared_sampleStock
  rw [same_iff.1 same c hc] at spared
  cases spared

end Dialogue

end ContainerJobs
