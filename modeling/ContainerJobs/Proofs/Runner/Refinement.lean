import ContainerJobs.Proofs.Container.State
import ContainerJobs.Proofs.Engine.Row
import ContainerJobs.Proofs.Runner.Cleanup
import ContainerJobs.Proofs.Runner.JobTable

/-!
# A runner on an engine in memory is a table of jobs

Names, labels, ids, listings and inspections are how a runner keeps its table in an
engine. The table is read off the containers (`ContainerStore.table`), and each
action does to it what it should (`ContainerStore.IsTabled.perform`), as long as
each container belongs to one of the jobs in use, and names tell these apart. By
induction along the actions, all answers are those of a table, and so is what the
engine has in the end (`Runner.performAll_refines`).
-/

namespace ContainerJobs

/-! ## What is asked of states and actions -/

/-- The state passes through inspections and listings as it is. -/
structure ContainerState.IsTellable (s : ContainerState) : Prop extends s.IsPlain where
  /-- The engine's word has none of the characters that a listing puts between
      texts. -/
  listed : Listing.IsPlain s.status

theorem ContainerState.isTellable_started : started.IsTellable where
  toIsPlain := isPlain_started
  listed := by rw [Listing.IsPlain]; decide

/-- The runner can carry out the action: a job that is to be started has a valid
    function and a task, and a state is one that an engine can tell. -/
def JobAction.IsSound (r : Runner) : JobAction → Prop
  | start q =>
    q.function.validate = .ok q.function ∧ ∃ task, r.instances q.key.trajectory = .ok task
  | setState _ state => state.IsTellable
  | _ => True

/-! ## The table of a store -/

/-- The ids that the labels of the container hold. -/
def Container.givenKey (c : Container) : JobKey where
  project := c.label Label.rawProject
  trajectory := c.label Label.rawTrajectory

theorem Container.CarriesIds.givenKey_eq {c : Container} {k : JobKey} (h : c.CarriesIds k) :
    c.givenKey = k := by
  rw [givenKey, h.label_rawProject, h.label_rawTrajectory]

namespace ContainerStore

/-- The jobs of the containers and their states. -/
def table (s : ContainerStore) : JobTable :=
  s.containers.map fun c => (c.givenKey, c.state)

/-- Each container is that of a job in use, as the runner made it. -/
structure IsTabled (s : ContainerStore) (r : Runner) (keys : List JobKey) : Prop where
  /-- Names tell the containers apart. -/
  apart : s.NamesApart
  /-- The name and the labels follow from the ids. -/
  isFor : ∀ c ∈ s.containers, c.IsFor r.config.nameStem c.givenKey
  /-- The ids are there. -/
  carriesIds : ∀ c ∈ s.containers, c.CarriesIds c.givenKey
  /-- They are those of a job in use. -/
  known : ∀ c ∈ s.containers, c.givenKey ∈ keys
  /-- The state can be told. -/
  states : ∀ c ∈ s.containers, c.state.IsTellable ∧ c.garbled = false

variable {s : ContainerStore} {r : Runner} {keys : List JobKey} {k : JobKey}

theorem isTabled_empty : IsTabled {} r keys :=
  ⟨namesApart_empty, by simp, by simp, by simp, by simp⟩

/-- What holds of each container still holds when some are gone. -/
theorem IsTabled.filter (h : s.IsTabled r keys) (p : Container → Bool) :
    IsTabled { s with containers := s.containers.filter p } r keys where
  apart := h.apart.of_isPart (isPart_filter s p)
  isFor c hc := h.isFor c (List.mem_filter.1 hc).1
  carriesIds c hc := h.carriesIds c (List.mem_filter.1 hc).1
  known c hc := h.known c (List.mem_filter.1 hc).1
  states c hc := h.states c (List.mem_filter.1 hc).1

/-- A removal that goes by the jobs of the containers is one from the table. -/
theorem table_filter {p : Container → Bool} {q : JobKey × ContainerState → Bool}
    (h : ∀ c ∈ s.containers, p c = q (c.givenKey, c.state)) :
    table { s with containers := s.containers.filter p } = s.table.filter q := by
  rw [table, table, List.filter_map, List.filter_congr h]
  rfl

section

variable (h : s.IsTabled r keys)
  (apart : ∀ k ∈ keys, ∀ k' ∈ keys, r.resourceName k = r.resourceName k' → k = k')

include h apart

theorem IsTabled.name_eq_iff (hk : k ∈ keys) {c : Container} (hc : c ∈ s.containers) :
    c.name = r.resourceName k ↔ c.givenKey = k := by
  rw [(h.isFor c hc).name]
  constructor
  · exact apart _ (h.known c hc) k hk
  · rintro rfl
    rfl

/-- An inspection under the name of a job finds the state in the table. -/
theorem IsTabled.presence (hk : k ∈ keys) :
    s.presence (r.resourceName k) = (s.table.lookup k).elim .missing .found := by
  have lookup (l : List Container) (known : ∀ c ∈ l, c ∈ s.containers) :
      (l.map fun c => (c.givenKey, c.state)).lookup k =
        (l.find? (·.name == r.resourceName k)).map (·.state) := by
    induction l with
    | nil => rfl
    | cons c l ih =>
      have rest := ih fun d hd => known d (List.mem_cons_of_mem _ hd)
      have name := h.name_eq_iff apart hk (known c List.mem_cons_self)
      by_cases key : c.givenKey = k
      · simp [key, name.2 key]
      · -- Another job has another name, so both searches go on.
        have otherKey : (k == c.givenKey) = false :=
          beq_eq_false_iff_ne.2 (Ne.symm key)
        have otherName : (c.name == r.resourceName k) = false :=
          beq_eq_false_iff_ne.2 (mt name.1 key)
        rw [List.map_cons, List.lookup_cons, otherKey, List.find?_cons, otherName]
        exact rest
  have hyphen : '-' ∈ (r.resourceName k).toList := k.hyphen_mem_resourceName _
  rw [ContainerStore.presence, find?_name h.apart.numbered hyphen, table, lookup _ fun _ hc => hc]
  cases found : s.containers.find? (·.name == r.resourceName k) with
  | none => rfl
  | some c =>
    obtain ⟨state, readable⟩ := h.states c (List.mem_of_find?_eq_some found)
    exact Container.presence_eq_found state.toIsPlain readable

/-- A removal under the name of a job removes the job from the table. -/
theorem IsTabled.erase (hk : k ∈ keys) : (s.erase (r.resourceName k)).IsTabled r keys ∧
    (s.erase (r.resourceName k)).table = s.table.remove k := by
  have hyphen : '-' ∈ (r.resourceName k).toList := k.hyphen_mem_resourceName _
  rw [h.apart.distinct.erase_name hyphen]
  refine ⟨h.filter _, table_filter fun c hc => ?_⟩
  simp only [ne_eq, h.name_eq_iff apart hk hc]

/-- A change of state under the name of a job is one in the table. -/
theorem IsTabled.setState (hk : k ∈ keys) {state : ContainerState} (hstate : state.IsTellable) :
    let t := s.modify (r.resourceName k) fun c => { c with state }
    t.IsTabled r keys ∧ t.table = s.table.setState k state := by
  intro t
  have hyphen : '-' ∈ (r.resourceName k).toList := k.hyphen_mem_resourceName _
  have part : t.IsPart s := isPart_modify s _ fun _ => rfl
  have same : ∀ d ∈ t.containers, d ∈ s.containers ∨ ∃ c ∈ s.containers, d = { c with state } :=
    fun d hd => mem_modifyFirst hd
  constructor
  · -- Nothing but the state changes, so each field holds as before.
    refine ⟨h.apart.of_isPart part, ?_, ?_, ?_, ?_⟩
    all_goals
      intro d hd
      obtain hd | ⟨c, hc, rfl⟩ := same d hd
    · exact h.isFor d hd
    · exact ⟨(h.isFor c hc).name, (h.isFor c hc).managed, (h.isFor c hc).project,
        (h.isFor c hc).trajectory⟩
    · exact h.carriesIds d hd
    · exact ⟨(h.carriesIds c hc).project, (h.carriesIds c hc).trajectory⟩
    · exact h.known d hd
    · exact h.known c hc
    · exact h.states d hd
    · exact ⟨hstate, (h.states c hc).2⟩
  · rw [show t = _ from h.apart.distinct.modify_name hyphen _, table, table, JobTable.setState, List.map_map,
      List.map_map]
    refine List.map_congr_left fun c hc => ?_
    by_cases key : c.givenKey = k
    · subst key
      simp [(h.name_eq_iff apart hk hc).2 rfl, Container.givenKey, Container.label]
    · have other : ¬ c.name = r.resourceName k := mt (h.name_eq_iff apart hk hc).1 key
      simp [key, other]

end

/-! ## Starts -/

theorem IsTabled.add (h : s.IsTabled r keys) {q : StartRequest} (task : TaskInstance)
    (hk : q.key ∈ keys) (free : s.find? (r.resourceName q.key) = none) :
    (s.add (r.container q task)).IsTabled r keys ∧
      (s.add (r.container q task)).table = s.table.add q.key := by
  have ids : (r.container q task (idOf (s.lastNumber + 1))).CarriesIds q.key :=
    Runner.carriesIds_container _
  have key := ids.givenKey_eq
  have cases {d : Container} (hd : d ∈ (s.add (r.container q task)).containers) :
      d ∈ s.containers ∨ d = r.container q task (idOf (s.lastNumber + 1)) :=
    (List.mem_append.1 hd).imp id List.mem_singleton.1
  constructor
  · refine ⟨h.apart.add (fun _ => ⟨rfl, rfl⟩) (q.key.hyphen_mem_resourceName _) free,
      ?_, ?_, ?_, ?_⟩
    all_goals
      intro d hd
      obtain hd | rfl := cases hd
    · exact h.isFor d hd
    · exact key ▸ Runner.isFor_container _
    · exact h.carriesIds d hd
    · exact key ▸ ids
    · exact h.known d hd
    · exact key ▸ hk
    · exact h.states d hd
    · exact ⟨ContainerState.isTellable_started, rfl⟩
  · rw [table, ContainerStore.add, List.map_append, List.map_singleton, key]
    rfl

/-- Whether a start goes ahead is told by the table. -/
theorem hindrance_ne_lasting_iff (state? : Option ContainerState) :
    (state?.elim Presence.missing Presence.found).hindrance ≠ .lasting ↔
      state?.all JobTable.givesWay = true := by
  cases state? with
  | none => simp [Presence.hindrance]
  | some state =>
    have canceled := state.jobStatus_ne_canceled
    simp only [Option.elim_some, Option.all_some, Presence.hindrance, JobTable.givesWay]
    cases status : state.jobStatus <;> simp_all

end ContainerStore

/-! ## Actions -/

namespace ContainerStore

variable {s : ContainerStore} {r : Runner} {keys : List JobKey} {k : JobKey}

section

variable (h : s.IsTabled r keys)
  (apart : ∀ k ∈ keys, ∀ k' ∈ keys, r.resourceName k = r.resourceName k' → k = k')

include h apart

theorem IsTabled.start {q : StartRequest} (hk : q.key ∈ keys)
    (sound : (JobAction.start q).IsSound r) :
    ∃ t, r.perform { store := s } (.start q) = ((s.table.perform (.start q)).1, { store := t }) ∧
      t.table = (s.table.perform (.start q)).2 ∧ t.IsTabled r keys ∧
        t.lastNumber ≤ s.lastNumber + 1 := by
  obtain ⟨valid, task, htask⟩ := sound
  have presence := h.presence apart hk
  have free : StartLock.always.isHeld (r.resourceName q.key) = false := rfl
  rw [JobTable.perform]
  obtain ⟨lasting, value, same⟩ | ⟨lasting, value, made⟩ :=
    InMemory.start_run h.apart free valid htask
  · rw [presence] at lasting
    have stays := mt (hindrance_ne_lasting_iff _).2 (not_not.2 lasting)
    refine ⟨s, ?_, ?_, h, Nat.le_succ _⟩
    · rw [if_neg stays, Runner.perform, value, same]
    · rw [if_neg stays]
  · rw [presence, hindrance_ne_lasting_iff] at lasting
    obtain ⟨erased, removed⟩ := h.erase apart hk
    -- What was there is gone, so the new container is the only one of its name.
    have free : (s.erase (r.resourceName q.key)).find? (r.resourceName q.key) = none :=
      h.apart.distinct.find?_erase (q.key.hyphen_mem_resourceName _)
    obtain ⟨tabled, added⟩ := erased.add task hk free
    refine ⟨_, ?_, ?_, tabled, Nat.le_refl _⟩
    · rw [if_pos lasting, Runner.perform, value, made]
    · rw [if_pos lasting, added, removed]

theorem IsTabled.cleanup (hk : k ∈ keys) :
    ((r.cleanup k).run InMemory.engine { store := s } .always).value = true ∧
      ∃ t, ((r.cleanup k).run InMemory.engine { store := s } .always).engine = { store := t } ∧
        t.table = s.table.remove k ∧ t.IsTabled r keys ∧ t.lastNumber = s.lastNumber := by
  obtain ⟨gone, erased⟩ := r.cleanup_run_of_isUp (m := { store := s }) k rfl .always
  obtain ⟨tabled, removed⟩ := h.erase apart hk
  exact ⟨gone, _, erased, removed, tabled, rfl⟩

theorem IsTabled.status (hk : k ∈ keys) :
    ((r.status k).run InMemory.engine { store := s } .always).value =
        (s.table.lookup k).map (·.jobStatus) ∧
      ((r.status k).run InMemory.engine { store := s } .always).engine = { store := s } := by
  simp only [Runner.status, Dialogue.run_bind, InMemory.observe_run, Dialogue.run_pure,
    h.presence apart hk, and_true]
  cases s.table.lookup k <;> rfl

end

/-- A bulk cancel takes the jobs of the project, as the ids tell what they are. -/
theorem IsTabled.isCanceledWith (h : s.IsTabled r keys) (proper : ∀ k ∈ keys, k.IsProper)
    {c : Container} (hc : c ∈ s.containers) (project : String) :
    c.isCanceledWith project = (c.givenKey.project == project) := by
  have ids := (proper _ (h.known c hc)).project
  have raw : Text.trim (c.label Label.rawProject) = c.givenKey.project := ids.trim_eq
  -- A proper id is not blank, so the label never has to stand in for it.
  have blank : (c.givenKey.project == "") = false := beq_eq_false_iff_ne.2 ids.ne_empty
  rw [Container.isCanceledWith, raw, blank, Bool.false_or, (h.isFor c hc).isMarkedFor,
    Bool.eq_iff_iff, Bool.and_eq_true, beq_iff_eq, beq_iff_eq]
  exact ⟨And.right, fun same => ⟨congrArg _ same, same⟩⟩

theorem IsTabled.cancelProject (h : s.IsTabled r keys) (proper : ∀ k ∈ keys, k.IsProper)
    (few : s.lastNumber < shortIdCount) (project : String) :
    ∃ t, ((Dialogue.cancelProject project).run InMemory.engine { store := s } .always).engine =
        { store := t } ∧
      t.table = (s.table.filter fun e => e.1.project ≠ project) ∧ t.IsTabled r keys ∧
        t.lastNumber = s.lastNumber := by
  have plain : ∀ c ∈ s.containers, c.isMarkedFor (some project) = true →
      '\n' ∉ (c.label Label.rawProject).toList := fun c hc _ =>
    (proper _ (h.known c hc)).project.isPlain.1
  have removed := InMemory.cancelProject_run (h.apart.shortIdsApart few) plain .always
  refine ⟨_, removed, table_filter fun c hc => ?_, h.filter _, rfl⟩
  rw [h.isCanceledWith proper hc, Bool.eq_iff_iff]
  simp

section

variable (h : s.IsTabled r keys) (proper : ∀ k ∈ keys, k.IsProper) {c : Container}
  (hc : c ∈ s.containers)

include h proper hc

theorem IsTabled.isListable : c.IsListable :=
  (h.isFor c hc).isListable (h.carriesIds c hc) (proper _ (h.known c hc)).project.isPlain
    (proper _ (h.known c hc)).trajectory.isPlain (h.states c hc).1.listed

/-- The row of a container tells the job that it is of. -/
theorem IsTabled.listed_eq : c.listed =
    { name := c.name, key := c.givenKey, hasRawIds := true,
      createdAt := some JobTable.creation } := by
  have name : c.listed.name = c.name := rfl
  obtain ⟨key, raw⟩ := (h.carriesIds c hc).listed_key (proper _ (h.known c hc))
  have created : c.listed.createdAt = some JobTable.creation :=
    show Instant.ofListing? InMemory.creationTime = some JobTable.creation by decide
  generalize c.listed = row at name key raw created ⊢
  obtain ⟨rowName, rowKey, rowRaw, rowCreated⟩ := row
  rw [ListedContainer.mk.injEq]
  exact ⟨name, key, raw, created⟩

theorem IsTabled.isListedFor (project : Option String) :
    c.isListedFor project = project.all (c.givenKey.project == ·) := by
  cases project with
  | none =>
    rw [Container.isListedFor, Container.isMarkedFor, (h.isFor c hc).hasLabel_managed]
    rfl
  | some project =>
    have belongs : c.listed.belongsTo project = (c.givenKey.project == project) := by
      rw [h.listed_eq proper hc]
      exact if_pos rfl
    rw [Container.isListedFor, (h.isFor c hc).isMarkedFor, Option.all_some, Option.all_some,
      belongs, Bool.eq_iff_iff, Bool.and_eq_true, beq_iff_eq, beq_iff_eq]
    exact ⟨And.right, fun same => ⟨congrArg _ same, same⟩⟩

theorem IsTabled.job? (present : Instant) :
    c.job? present = some (JobTable.job present (c.givenKey, c.state)) := by
  obtain ⟨state, readable⟩ := h.states c hc
  rw [Container.job?, Container.presence_eq_found state.toIsPlain readable, h.listed_eq proper hc]
  rfl

end

theorem IsTabled.jobs (h : s.IsTabled r keys) (proper : ∀ k ∈ keys, k.IsProper)
    (present : Instant) (project : Option String) :
    ((Dialogue.jobs present project).run InMemory.engine { store := s } .always).value =
        (s.table.filter fun e => project.all (e.1.project == ·)).map (JobTable.job present) ∧
      ((Dialogue.jobs present project).run InMemory.engine { store := s } .always).engine =
        { store := s } := by
  obtain ⟨told, same⟩ := InMemory.jobs_run s present project .always
  refine ⟨told.trans ?_, same⟩
  rw [InMemory.jobs_of_forall_isListable h.apart.distinct (fun c hc _ => h.isListable proper hc)
      (fun c hc _ => h.apart.hyphens c hc),
    List.filter_congr fun c hc => h.isListedFor proper hc project, table, List.filter_map,
    List.map_map, map_snd_filterMap_pair, ← List.filterMap_eq_map]
  exact List.filterMap_congr fun c hc => h.job? proper (List.mem_filter.1 hc).1 present

/-- Every action on a store does to its table what it should, and answers what it
    should. -/
theorem IsTabled.perform (h : s.IsTabled r keys)
    (apart : ∀ k ∈ keys, ∀ k' ∈ keys, r.resourceName k = r.resourceName k' → k = k')
    (proper : ∀ k ∈ keys, k.IsProper) {a : JobAction} (sound : a.IsSound r)
    (known : ∀ k ∈ a.key?, k ∈ keys)
    (few : ∀ project, a = .cancelProject project → s.lastNumber < shortIdCount) :
    ∃ t, r.perform { store := s } a = ((s.table.perform a).1, { store := t }) ∧
      t.table = (s.table.perform a).2 ∧ t.IsTabled r keys ∧
        t.lastNumber ≤ s.lastNumber + [a].countP JobAction.isStart := by
  cases a with
  | start q => exact h.start apart (known q.key rfl) sound
  | cancel key =>
    obtain ⟨-, t, left, table, tabled, last⟩ := h.cleanup apart (known key rfl)
    refine ⟨t, ?_, table, tabled, last.le⟩
    simp only [Runner.perform, Runner.cancel, Dialogue.run_bind, Dialogue.run_pure, left]
    rfl
  | cancelProject project =>
    obtain ⟨t, left, table, tabled, last⟩ := h.cancelProject proper (few project rfl) project
    refine ⟨t, ?_, table, tabled, last.le⟩
    rw [Runner.perform, Runner.cancel, left]
    rfl
  | cleanup key =>
    obtain ⟨gone, t, left, table, tabled, last⟩ := h.cleanup apart (known key rfl)
    refine ⟨t, ?_, table, tabled, last.le⟩
    rw [Runner.perform, gone, left]
    rfl
  | status key =>
    obtain ⟨value, same⟩ := h.status apart (known key rfl)
    refine ⟨s, ?_, rfl, h, Nat.le_refl _⟩
    rw [Runner.perform, value, same]
    rfl
  | jobs present project =>
    obtain ⟨value, same⟩ := h.jobs proper present project
    refine ⟨s, ?_, rfl, h, Nat.le_refl _⟩
    rw [Runner.perform, value, same]
    rfl
  | setState key state =>
    -- The answer tells whether there was a container to change.
    have there : (s.find? (r.resourceName key)).isSome = (s.table.lookup key).isSome := by
      have missing : s.presence (r.resourceName key) = .missing ↔ _ :=
        InMemory.presence_eq_missing_iff
      rw [h.presence apart (known key rfl)] at missing
      rw [Bool.eq_iff_iff, Option.isSome_iff_ne_none, Option.isSome_iff_ne_none, Ne, ← missing]
      cases s.table.lookup key <;> simp
    obtain ⟨tabled, table⟩ := h.setState apart (known key rfl) sound
    refine ⟨_, ?_, table, tabled, Nat.le_refl _⟩
    rw [Runner.perform, InMemory.isSome_modify?, InMemory.modify?_getD, there]
    rfl

/-- The same for actions one after the other. The jobs in use stay the same along the
    way; the number of ids that were given grows with each start. -/
theorem IsTabled.performAll (h : s.IsTabled r keys)
    (apart : ∀ k ∈ keys, ∀ k' ∈ keys, r.resourceName k = r.resourceName k' → k = k')
    (proper : ∀ k ∈ keys, k.IsProper) {actions : List JobAction}
    (sound : ∀ a ∈ actions, a.IsSound r) (known : ∀ a ∈ actions, ∀ k ∈ a.key?, k ∈ keys)
    (few : ∀ i project, actions[i]? = some (.cancelProject project) →
      s.lastNumber + (actions.take i).countP JobAction.isStart < shortIdCount) :
    ∃ t, r.performAll { store := s } actions =
        ((s.table.performAll actions).1, { store := t }) ∧
      t.table = (s.table.performAll actions).2 := by
  induction actions generalizing s with
  | nil => exact ⟨s, rfl, rfl⟩
  | cons a actions ih =>
    obtain ⟨t, step, table, tabled, last⟩ := h.perform apart proper
      (sound a List.mem_cons_self) (known a List.mem_cons_self)
      fun project hproject => few 0 project (by rw [hproject]; rfl)
    -- The step used up one id at most, and only if it was a start.
    have fewer : ∀ i project, actions[i]? = some (.cancelProject project) →
        t.lastNumber + (actions.take i).countP JobAction.isStart < shortIdCount := by
      intro i project hi
      have later := few (i + 1) project hi
      rw [List.take_succ_cons, ← List.singleton_append, List.countP_append] at later
      omega
    obtain ⟨u, steps, tables⟩ := ih tabled (fun b hb => sound b (List.mem_cons_of_mem _ hb))
      (fun b hb => known b (List.mem_cons_of_mem _ hb)) fewer
    refine ⟨u, ?_, ?_⟩
    · rw [Runner.performAll, JobTable.performAll, step, steps, table]
    · rw [tables, JobTable.performAll, table]

end ContainerStore

namespace Runner

/-- Whatever is done to a runner and its engine, one after the other, the answers are
    those of a table of jobs, and in the end the engine has the containers of the jobs
    in the table, in their order and states.

    The ids and names are as for a single action. The last hypothesis, `few`, is one more
    condition, on capacity: before each bulk cancel there are fewer than `16 ^ 12` starts.
    A bulk cancel goes by the first twelve digits of the ids, which tell containers apart
    for that many starts and not for one more (`ContainerStore.shortId_ambiguous`), so
    without the condition the statement does not hold. -/
theorem performAll_refines (r : Runner) (actions : List JobAction)
    (sound : ∀ a ∈ actions, a.IsSound r)
    (proper : ∀ k ∈ actions.filterMap JobAction.key?, k.IsProper)
    (apart : ∀ k ∈ actions.filterMap JobAction.key?, ∀ k' ∈ actions.filterMap JobAction.key?,
      r.resourceName k = r.resourceName k' → k = k')
    (few : ∀ i project, actions[i]? = some (.cancelProject project) →
      (actions.take i).countP JobAction.isStart < ContainerStore.shortIdCount) :
    ∃ s, r.performAll {} actions = ((JobTable.performAll [] actions).1, { store := s }) ∧
      s.table = (JobTable.performAll [] actions).2 :=
  ContainerStore.isTabled_empty.performAll apart proper sound
    (fun a ha _ hk => List.mem_filterMap.2 ⟨a, ha, hk⟩) (by simpa using few)

/-- Two jobs of two projects. The first one ends, is started again, and is called off. -/
def sampleActions : List JobAction :=
  [.start (sampleRequest ⟨"lens", "run-1"⟩), .start (sampleRequest ⟨"quasar", "run-1"⟩),
    .setState ⟨"lens", "run-1"⟩ (.exited 0), .start (sampleRequest ⟨"lens", "run-1"⟩),
    .jobs { second := 1714558200, nano := 0 } (some "lens"), .cancelProject "lens",
    .status ⟨"quasar", "run-1"⟩]

theorem mem_keys_sampleActions {k : JobKey} : k ∈ sampleActions.filterMap JobAction.key? ↔
    k = ⟨"lens", "run-1"⟩ ∨ k = ⟨"quasar", "run-1"⟩ := by
  simp only [sampleActions, sampleRequest, JobAction.key?, List.filterMap_cons, List.filterMap_nil,
    List.mem_cons, List.not_mem_nil, or_false]
  tauto

theorem isSound_sampleActions : ∀ a ∈ sampleActions, a.IsSound sample := by
  have valid : (sampleRequest ⟨"lens", "run-1"⟩).function.validate =
      .ok (sampleRequest ⟨"lens", "run-1"⟩).function := rfl
  have state : (ContainerState.exited 0).IsTellable := by
    refine ⟨⟨⟨by decide, by decide⟩, rfl, ⟨by decide, by decide⟩, ⟨by decide, by decide⟩⟩, ?_⟩
    exact ⟨by decide, by decide⟩
  simp only [sampleActions, List.mem_cons, List.not_mem_nil, or_false]
  rintro a (rfl | rfl | rfl | rfl | rfl | rfl | rfl)
  · exact ⟨valid, _, rfl⟩
  · exact ⟨valid, _, rfl⟩
  · exact state
  · exact ⟨valid, _, rfl⟩
  all_goals exact trivial

theorem isProper_sampleActions :
    ∀ k ∈ sampleActions.filterMap JobAction.key?, k.IsProper := by
  intro k hk
  rcases mem_keys_sampleActions.1 hk with rfl | rfl
  all_goals
    constructor <;> exact ⟨by decide, by decide, by decide, by decide⟩

/-- The legible parts of the names differ, so the digests need not be computed. -/
theorem resourceName_sampleActions (stem : String) :
    (⟨"lens", "run-1"⟩ : JobKey).resourceName stem ≠
      (⟨"quasar", "run-1"⟩ : JobKey).resourceName stem := by
  intro same
  have parts := congrArg String.toList same
  have lens : Label.segment 40 "lens" = ['l', 'e', 'n', 's'] := by decide
  have quasar : Label.segment 40 "quasar" = ['q', 'u', 'a', 's', 'a', 'r'] := by decide
  simp [JobKey.toList_resourceName, lens, quasar] at parts

theorem apart_sampleActions : ∀ k ∈ sampleActions.filterMap JobAction.key?,
    ∀ k' ∈ sampleActions.filterMap JobAction.key?,
      sample.resourceName k = sample.resourceName k' → k = k' := by
  intro k hk k' hk' same
  rcases mem_keys_sampleActions.1 hk with rfl | rfl <;>
    rcases mem_keys_sampleActions.1 hk' with rfl | rfl
  · rfl
  · exact absurd same (resourceName_sampleActions _)
  · exact absurd same.symm (resourceName_sampleActions _)
  · rfl

theorem few_sampleActions (i : Nat) : (sampleActions.take i).countP JobAction.isStart <
    ContainerStore.shortIdCount :=
  Nat.lt_of_le_of_lt (List.countP_le_length.trans (List.length_take_le' _ _)) (by decide)

/-- In the end the job of the other project is there, and runs. -/
theorem performAll_refines_sampleActions :
    (∀ a ∈ sampleActions, a.IsSound sample) ∧
      (∀ k ∈ sampleActions.filterMap JobAction.key?, k.IsProper) ∧
      (∀ k ∈ sampleActions.filterMap JobAction.key?, ∀ k' ∈ sampleActions.filterMap JobAction.key?,
        sample.resourceName k = sample.resourceName k' → k = k') ∧
      ∃ s, sample.performAll {} sampleActions =
          ((JobTable.performAll [] sampleActions).1, { store := s }) ∧
        s.table = [(⟨"quasar", "run-1"⟩, .started)] := by
  obtain ⟨s, run, table⟩ := performAll_refines sample sampleActions isSound_sampleActions
    isProper_sampleActions apart_sampleActions fun i _ _ => few_sampleActions i
  refine ⟨isSound_sampleActions, isProper_sampleActions, apart_sampleActions, s, run, ?_⟩
  rw [table]
  decide

end Runner

end ContainerJobs
