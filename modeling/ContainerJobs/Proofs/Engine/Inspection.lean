import ContainerJobs.Proofs.Container.State
import ContainerJobs.Proofs.Engine.Effect
import ContainerJobs.Proofs.Json.Value
import ContainerJobs.Proofs.Launch.Arguments
import ContainerJobs.Runner.Inquiry

/-!
# Full inspections

An engine in memory answers a full inspection with a JSON text. A runner reads back
the very value that the text was written from (`InMemory.ofText?_inspection`), and in it
the state of the container as it is (`ContainerState.ofJson?_stateJson`), even one that
cannot be told in one line. So the report on a job is made from the state that the
container has (`InMemory.details_run`). Where the line of the state can be read as well, it
tells the same (`InMemory.readings_agree`).
-/

namespace ContainerJobs

theorem Number.isWord_of_isSigned {n : Int} (h : Text.isSigned n = true) : IsWord n := by
  obtain ⟨low, high⟩ := Bool.and_eq_true_iff.1 h
  refine ⟨of_decide_eq_true low, (of_decide_eq_true high).trans ?_⟩
  decide

theorem ContainerState.ofJson?_stateJson {s : ContainerState}
    (code : Text.isSigned s.exitCode = true) : ofJson? (InMemory.stateJson s) = some s := by
  have read : (Json.int s.exitCode).signed? = some s.exitCode := if_pos code
  change some { s with exitCode := ((Json.int s.exitCode).signed?).getD (-1) } = some s
  rw [read, Option.getD_some]

namespace InMemory

variable {s : ContainerStore} {c : Container}

/-! ## What is written -/

theorem isFree_labels {l : List (String × String)} (sorted : Assoc.Sorted l) (depth : Nat) :
    (Json.object (l.map fun (k, v) => (k, .string v))).IsFree (depth + 1) :=
  .object (List.pairwise_map.2 sorted) (List.forall_mem_map.2 fun p _ => .string p.2)

theorem isWhole_inspection (code : Text.isSigned c.state.exitCode = true) :
    (inspection c).IsWhole := by
  rw [inspection, stateJson]
  simp only [Json.isWhole_array_iff, Json.isWhole_object_iff, Json.isWhole_string,
    Json.isWhole_bool, Json.isWhole_int_iff, Number.isWord_of_isSigned code, List.forall_mem_cons,
    List.forall_mem_map, List.not_mem_nil, false_implies, implies_true, and_true]

/-- The keys of every object are in order, given that the labels are. -/
theorem isFree_inspection (sorted : Assoc.Sorted c.labels) (depth : Nat) :
    (inspection c).IsFree (depth + 4) := by
  rw [inspection, stateJson]
  -- The labels are not known, so they are settled before the keys that are spelled out.
  simp +decide only [↓isFree_labels sorted depth, Json.isFree_array_iff, Json.isFree_object_iff,
    Json.isFree_string, Json.isFree_bool, Json.isFree_int, Assoc.sorted_iff_keys, List.map_cons,
    List.map_nil, List.forall_mem_cons, List.forall_mem_map, List.not_mem_nil, false_implies,
    implies_true, and_true]

theorem ofText?_inspection (code : Text.isSigned c.state.exitCode = true)
    (sorted : Assoc.Sorted c.labels) :
    Json.ofText? (inspection c).render = some (inspection c) :=
  Json.ofText?_render (isWhole_inspection code) (isFree_inspection sorted 123)

/-! ## What a runner makes of it -/

theorem engine_inspect (s : ContainerStore) (name : String) :
    engine ["inspect", name] { store := s } =
      (.ok ((s.find? name).elim (noObject name) fun c => succeed (inspection c).render),
        { store := s }) := by
  have last : ["inspect", name].getLastD "" = name := rfl
  have format : optionValues "--format" ["inspect", name] = [] := by simp [optionValues]
  change ((Except.ok (inspect s ["inspect", name]) : Answer), ({ store := s } : InMemory)) = _
  rw [inspect, last, format]
  cases s.find? name with
  | none => rfl
  | some c => simp

/-- The one item of an inspection holds the time of creation and the state. -/
theorem exists_content (c : Container) : ∃ content, inspection c = .array [content] ∧
    content.get? "Created" = some (.string "2024-05-01T09:59:58.000000000Z") ∧
    content.get? "State" = some (stateJson c.state) :=
  ⟨_, rfl, rfl, rfl⟩

theorem containerLogs_run (s : ContainerStore) (name : String) (lock : StartLock) :
    ((Dialogue.containerLogs name).run engine { store := s } lock).value =
      ((s.find? name).map (·.logs)).filter fun logs => !Text.isBlankText logs := by
  have reply : engine ["logs", name] { store := s } = (.ok (logs s [name]), { store := s }) := rfl
  simp only [Dialogue.containerLogs, Dialogue.command_bind, Dialogue.run_ask, Dialogue.run_pure,
    reply, logs, List.head?_cons, Option.bind_some]
  cases s.find? name with
  | none => rfl
  | some c => simp [Answer.success?]

/-- The report on a job is made from the inspection of its container, and the status in it
    is that of the container. -/
theorem details_run {r : Runner} {key : JobKey} (found : s.find? (r.resourceName key) = some c)
    (code : Text.isSigned c.state.exitCode = true) (sorted : Assoc.Sorted c.labels)
    (lock : StartLock) :
    ∃ i : Inspection, inspection c = .array [i.content] ∧ i.key = key ∧
      i.status = c.state.jobStatus ∧
      i.logs = (some c.logs).filter (fun logs => !Text.isBlankText logs) ∧
      ((r.details key).run engine { store := s } lock).value =
        some (JobDetails.ofInspection i) := by
  obtain ⟨content, item, -, state⟩ := exists_content c
  have read : inspectedContainer? (inspection c).render = some content := by
    rw [inspectedContainer?, ofText?_inspection code sorted, item]
    rfl
  refine ⟨⟨key, c.state.jobStatus, content,
    (some c.logs).filter fun logs => !Text.isBlankText logs⟩, item, rfl, rfl, rfl, ?_⟩
  simp only [Runner.details, Dialogue.command_bind, Dialogue.run_ask, engine_inspect, found,
    Option.elim_some, Answer.success?, isSuccess_succeed, if_true, Option.bind_some,
    stdout_succeed, read, Option.bind_eq_bind, state, ContainerState.ofJson?_stateJson code,
    Option.pure_def, Dialogue.run_bind, Dialogue.run_pure, containerLogs_run, Option.map_some]

/-- The times in a report are those of the inspection. -/
theorem ofInspection_times {i : Inspection} (item : inspection c = .array [i.content]) :
    (JobDetails.ofInspection i).enqueuedAt =
        EngineTime.instant? "2024-05-01T09:59:58.000000000Z" ∧
      (JobDetails.ofInspection i).startedAt = EngineTime.instant? c.state.startedAt ∧
      (JobDetails.ofInspection i).endedAt = EngineTime.instant? c.state.finishedAt := by
  obtain ⟨content, written, created, state⟩ := exists_content c
  obtain rfl : content = i.content := by simpa [written] using item
  simp only [JobDetails.ofInspection, Report.part, Report.text, created, state, Option.getD_some]
  exact ⟨rfl, rfl, rfl⟩

/-! ## Both readings -/

theorem status_run {r : Runner} {key : JobKey} (found : s.find? (r.resourceName key) = some c)
    (plain : c.state.IsPlain) (readable : c.garbled = false) (lock : StartLock) :
    ((r.status key).run engine { store := s } lock).value = some c.state.jobStatus := by
  simp only [Runner.status, Dialogue.run_bind, observe_run, Dialogue.run_pure,
    ContainerStore.presence, found, Option.elim_some, c.presence_eq_found plain readable]
  rfl

/-- A state whose texts are fields is read as it is from its line, and from the text of a full
    inspection. So on an engine that is up, whether or not it takes launches, the status of
    a job and the report on it agree. -/
theorem readings_agree {state : ContainerState} (plain : state.IsPlain) :
    ContainerState.ofLine? (stateLine state) = some state ∧
      (∀ c : Container, c.state = state → Assoc.Sorted c.labels →
        ∃ content, Json.ofText? (inspection c).render = some (.array [content]) ∧
          (content.get? "State").bind ContainerState.ofJson? = some state) ∧
      ∀ (e : InMemory) (r : Runner) (key : JobKey) (c : Container) (lock : StartLock),
        e.isDown = false → e.store.find? (r.resourceName key) = some c → c.state = state →
        Assoc.Sorted c.labels → c.garbled = false →
        ((r.status key).run engine e lock).value = some state.jobStatus ∧
          ∃ d, ((r.details key).run engine e lock).value = some d ∧
            d.status = state.jobStatus := by
  refine ⟨ContainerState.ofLine?_stateLine plain, ?_, ?_⟩
  · rintro c rfl sorted
    obtain ⟨content, item, -, part⟩ := exists_content c
    refine ⟨content, item ▸ ofText?_inspection plain.exitCode sorted, ?_⟩
    rw [part, Option.bind_some, ContainerState.ofJson?_stateJson plain.exitCode]
  · rintro ⟨store, refusesLaunch, isDown⟩ r key c lock up found rfl sorted readable
    obtain rfl : isDown = false := up
    obtain ⟨i, -, -, status, -, report⟩ := details_run found plain.exitCode sorted lock
    -- Launches are not asked for, so it does not matter whether they are refused.
    have sameStatus := run_refusesLaunch (d := r.status key)
      (Runner.asks_status_of (by simp [Command.inspectState])) refusesLaunch { store } lock
    have sameReport := run_refusesLaunch (d := r.details key)
      (Runner.asks_details_of (by simp) (by simp)) refusesLaunch { store } lock
    refine ⟨?_, JobDetails.ofInspection i, ?_, status⟩
    · exact (congrArg Outcome.value sameStatus).trans (status_run found plain readable lock)
    · exact (congrArg Outcome.value sameReport).trans report

/-- A state with empty texts, a text to be escaped, and the least exit code. -/
def sampleState : ContainerState :=
  { status := "", running := false, exitCode := -9223372036854775808, startedAt := "\"\u0007\"",
    finishedAt := "" }

/-- The container that a start of a job makes. -/
def sampleLaunched : Container :=
  launched ("run" :: Runner.sample.launchArgs (Runner.sampleRequest ⟨"lens", "run-1"⟩)
    { repo := "astro/astropy" }) (Runner.sample.resourceName ⟨"lens", "run-1"⟩)
    (ContainerStore.idOf 1)

theorem get?_labels_sampleLaunched : ∀ label ∈ (⟨"lens", "run-1"⟩ : JobKey).labels,
    Assoc.get? sampleLaunched.labels label.1 = some label.2 :=
  Runner.labels_launchArgs (q := Runner.sampleRequest ⟨"lens", "run-1"⟩) _ _

/-- The container after it got into this state. -/
def sampleContainer : Container :=
  { sampleLaunched with state := sampleState }

/-- An engine with this container, which takes no launches. -/
def sampleReadings : InMemory where
  store := { containers := [sampleContainer], lastNumber := 1 }
  refusesLaunch := true

theorem readings_agree_sampleState : sampleState.IsPlain ∧
    (∀ label ∈ (⟨"lens", "run-1"⟩ : JobKey).labels,
      Assoc.get? sampleContainer.labels label.1 = some label.2) ∧
    ContainerState.ofLine? (stateLine sampleState) = some sampleState ∧
    ((Runner.sample.status ⟨"lens", "run-1"⟩).run engine sampleReadings .always).value =
      some .running ∧
    ∃ d, ((Runner.sample.details ⟨"lens", "run-1"⟩).run engine sampleReadings .always).value =
      some d ∧ d.status = .running := by
  have plain : sampleState.IsPlain :=
    ⟨⟨by decide, by decide⟩, by decide, ⟨by decide, by decide⟩, ⟨by decide, by decide⟩⟩
  obtain ⟨line, -, agree⟩ := readings_agree plain
  have found : sampleReadings.store.find? (Runner.sample.resourceName ⟨"lens", "run-1"⟩) =
      some sampleContainer :=
    List.find?_cons_of_pos (by
      simp [Container.answersTo, sampleContainer, sampleLaunched, launched])
  have status : sampleState.jobStatus = .running := by decide
  obtain ⟨told, report⟩ := agree sampleReadings Runner.sample _ sampleContainer .always rfl found
    rfl (Assoc.sorted_ofPairs _) rfl
  rw [status] at told report
  exact ⟨plain, get?_labels_sampleLaunched, line, told, report⟩

end InMemory

end ContainerJobs
