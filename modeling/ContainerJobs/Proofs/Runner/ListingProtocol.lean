import ContainerJobs.Proofs.Container.State
import ContainerJobs.Proofs.Engine.Row
import ContainerJobs.Proofs.Runner.Success
import ContainerJobs.Runner.Listing

/-!
# Listings with any engine

An engine may answer a listing with any text: lines with fields missing or left over, blank
labels, times that cannot be read; and an inspection may fail. Whatever the answers are, a
listing keeps to a protocol (`ListingProtocol`): it inspects the rows that it retains, each once
and in order, and the jobs that it tells are well formed (`JobInfo.IsWellFormed`), at most one
for each line of the text.
-/

namespace ContainerJobs

/-- What those who read a listing of a project, or of all, rely on about each job in it. -/
structure JobInfo.IsWellFormed (project : Option String) (j : JobInfo) : Prop where
  /-- The id is made of both ids. -/
  id : j.id = j.key.project ++ ":" ++ j.key.trajectory
  /-- Both are there, have no blanks at their ends, and can be listed again. -/
  proper : j.key.IsProper
  /-- No container tells that its job was called off. -/
  status : j.status ≠ .canceled
  /-- There is an end exactly of what has ended. -/
  ended : j.endedAt.isSome = j.status.isTerminal
  /-- The project is the one that was asked for, by its id or by the label made of it. -/
  asked : ∀ p ∈ project, j.key.project = p ∨ j.key.project = Label.sanitize p

namespace ListedContainer

variable {c : ListedContainer} {line : List Char} {present : Instant} {answer : Answer}
  {j : JobInfo}

/-- The job that a row and the answer to its inspection tell, if they tell one. -/
def told? (c : ListedContainer) (present : Instant) (answer : Answer) : Option JobInfo :=
  (Presence.ofAnswer answer).state?.map (c.job present)

/-! ## Rows -/

/-- The ids of a row went through a listing, so they would do so again. -/
theorem isProper_key (ended : '\n' ∉ line) (h : ofLine? line = some c) : c.key.IsProper := by
  -- A field has only characters of the line, and no separator; trimming adds none.
  have isId {f : List Char} (field : f ∈ Text.split Listing.separator
      (Text.dropEndWhile (fun c => c == '\r' || c == '\n') line))
      (some : String.ofList (Text.trimmed f) ≠ "") :
      JobKey.IsId (.ofList (Text.trimmed f)) := by
    have sub := (Text.trimmed_sublist f).subset
    refine ⟨some, ?_, ?_, ?_⟩
    · rw [Text.trim, String.toList_ofList, Text.trimmed_trimmed]
    · rw [String.toList_ofList]
      exact fun mem => ended ((Text.dropEndWhile_sublist _ _).subset
        (Text.mem_of_mem_split field (sub mem)))
    · rw [String.toList_ofList]
      exact fun mem => Text.not_mem_of_mem_split field (sub mem)
  rw [ofLine?] at h
  dsimp only at h
  split at h
  · next name project trajectory rawProject rawTrajectory state created rest fields =>
    simp only [Option.ite_none_left_eq_some, not_or, Option.some.injEq] at h
    obtain ⟨⟨-, hp, ht⟩, rfl⟩ := h
    rw [fields] at isId
    dsimp only at hp ht ⊢
    split
    · next raw =>
      rw [if_pos raw] at hp ht
      exact ⟨isId (by simp) hp, isId (by simp) ht⟩
    · next unraw =>
      rw [if_neg unraw] at hp ht
      exact ⟨isId (by simp) hp, isId (by simp) ht⟩
  · cases h

theorem key_project_of_belongsTo {p : String} (h : c.belongsTo p = true) :
    c.key.project = p ∨ c.key.project = Label.sanitize p := by
  rw [belongsTo] at h
  split at h
  · exact .inl (eq_of_beq h)
  · exact .inr (eq_of_beq h)

theorem key_of_told?_eq_some (h : c.told? present answer = some j) : j.key = c.key := by
  obtain ⟨state, -, rfl⟩ := Option.map_eq_some_iff.1 h
  rfl

theorem isWellFormed_of_told? {project : Option String} (proper : c.key.IsProper)
    (asked : ∀ p ∈ project, c.belongsTo p = true) (h : c.told? present answer = some j) :
    j.IsWellFormed project := by
  obtain ⟨state, -, rfl⟩ := Option.map_eq_some_iff.1 h
  have status : (c.job present state).status = state.jobStatus := by rw [job]
  have ended : (c.job present state).endedAt.isSome = state.jobStatus.isTerminal := by
    rw [job]
    dsimp only
    cases state.jobStatus.isTerminal <;> rfl
  refine ⟨by rw [job, JobKey.id], proper, ?_, by rw [ended, status], ?_⟩
  · rw [status]
    exact state.jobStatus_ne_canceled
  · exact fun p hp => key_project_of_belongsTo (asked p hp)

end ListedContainer

/-- A row that is retained tells proper ids, and belongs to the project that was asked for. -/
theorem Listing.mem_containers {stdout : String} {project : Option String} {c : ListedContainer}
    (h : c ∈ containers stdout project) :
    c.key.IsProper ∧ ∀ p ∈ project, c.belongsTo p = true := by
  obtain ⟨row, asked⟩ := List.mem_filter.1 h
  obtain ⟨line, hline, read⟩ := List.mem_filterMap.1 row
  refine ⟨ListedContainer.isProper_key (Text.not_mem_of_mem_lines hline) read, ?_⟩
  rintro p ⟨⟩
  exact asked

/-! ## The protocol -/

/-- What a listing does, and what it tells, in terms of its exchanges: the answer about the
    rows, the rows that it retains, and an answer about each of them. -/
structure ListingProtocol (present : Instant) (project : Option String)
    (x : List (Command × Answer)) (jobs : List JobInfo) (listed : Answer)
    (rows : List ListedContainer) (answers : List Answer) : Prop where
  /-- The engine is asked for the rows, and then about each of them in order. -/
  exchanges : x = (.listJobs project, listed) ::
    (rows.zip answers).map fun y => (.inspectState y.1.name, y.2)
  /-- Each row gets an answer. -/
  answered : answers.length = rows.length
  /-- The rows are those of the text that can be read and belong to the project. -/
  retained : ∀ reply, listed = .ok reply → reply.exitCode = 0 →
    rows = Listing.containers reply.stdout project
  /-- The jobs are those of the rows, in order, as far as the answers tell a state. -/
  told : jobs = (rows.zip answers).filterMap fun y => y.1.told? present y.2
  /-- They are, in order, jobs of lines, and no line tells two. -/
  lines : ∀ reply, listed = .ok reply → (jobs.map (·.key)).Sublist
    ((Text.lines reply.stdout.toList).filterMap fun line =>
      (ListedContainer.ofLine? line).map (·.key))
  /-- Each of them is well formed. -/
  wellFormed : ∀ j ∈ jobs, j.IsWellFormed project
  /-- Where the engine does not list its containers, nothing more is asked or told. -/
  unlisted : (∀ reply, listed = .ok reply → reply.exitCode ≠ 0) →
    x = [(.listJobs project, listed)] ∧ jobs = []

namespace Dialogue

variable {σ : Type} {e : Engine σ}

/-- Each row is inspected once, in order, and what its answer tells is told. -/
theorem jobsOf_exchanges (present : Instant) (rows : List ListedContainer) (s : σ)
    (lock : StartLock) : ∃ answers : List Answer, answers.length = rows.length ∧
      (jobsOf present rows).exchanges e s lock =
        (rows.zip answers).map (fun y => (.inspectState y.1.name, y.2)) ∧
      ((jobsOf present rows).run e s lock).value =
        (rows.zip answers).filterMap fun y => y.1.told? present y.2 := by
  induction rows generalizing s with
  | nil => exact ⟨[], rfl, rfl, rfl⟩
  | cons c rows ih =>
    obtain ⟨answers, length, exchanges, value⟩ := ih (e (.inspectState c.name) s).2
    refine ⟨(e (.inspectState c.name) s).1 :: answers, ?_, ?_, ?_⟩
    · rw [List.length_cons, List.length_cons, length]
    · simp only [jobsOf, observe, command_bind, exchanges_bind, exchanges_ask, run_ask, exchanges_pure,
        run_pure, exchanges, List.append_nil, List.zip_cons_cons, List.map_cons]
      rfl
    · have first : (Presence.ofAnswer (e (.inspectState c.name) s).1).state?.map (c.job present) =
          c.told? present (e (.inspectState c.name) s).1 := rfl
      simp only [jobsOf, observe, command_bind, run_bind, run_ask, run_pure, value, first,
        List.zip_cons_cons, List.filterMap_cons]
      cases c.told? present (e (.inspectState c.name) s).1 <;> rfl

/-- A row tells at most one job. -/
theorem keys_sublist (present : Instant) (rows : List ListedContainer) (answers : List Answer) :
    (((rows.zip answers).filterMap fun y => y.1.told? present y.2).map (·.key)).Sublist
      (rows.map (·.key)) := by
  induction rows generalizing answers with
  | nil => exact .slnil
  | cons c rows ih =>
    cases answers with
    | nil => exact List.nil_sublist _
    | cons answer answers =>
      rw [List.zip_cons_cons, List.filterMap_cons, List.map_cons]
      cases h : c.told? present answer with
      | none => exact (ih answers).cons _
      | some j =>
        rw [List.map_cons, ListedContainer.key_of_told?_eq_some h]
        exact (ih answers).cons_cons _

/-- A line tells at most one row. -/
theorem keys_containers_sublist (stdout : String) (project : Option String) :
    ((Listing.containers stdout project).map (·.key)).Sublist
      ((Text.lines stdout.toList).filterMap fun line =>
        (ListedContainer.ofLine? line).map (·.key)) := by
  rw [← List.map_filterMap]
  exact List.Sublist.map _ List.filter_sublist

/-- The rows are asked for with one command. -/
theorem listedContainers_exchanges (project : Option String) (s : σ) (lock : StartLock) :
    (listedContainers project).exchanges e s lock =
        [(.listJobs project, (e (.listJobs project) s).1)] ∧
      (listedContainers project).run e s lock =
        { value := (e (.listJobs project) s).1.success?.elim [] fun reply =>
            Listing.containers reply.stdout project
          engine := (e (.listJobs project) s).2
          lock
          calls := [.listJobs project] } := by
  simp only [listedContainers, command_bind, exchanges_ask, run_ask]
  cases (e (.listJobs project) s).1.success? <;> exact ⟨rfl, rfl⟩

/-- A listing keeps to the protocol with any engine; what it puts to the engine are the
    commands of its exchanges. -/
theorem jobs_protocol (e : Engine σ) (s : σ) (lock : StartLock) (present : Instant)
    (project : Option String) :
    ((jobs present project).run e s lock).calls =
        ((jobs present project).exchanges e s lock).map (·.1) ∧
      ∃ listed rows answers, ListingProtocol present project
        ((jobs present project).exchanges e s lock) ((jobs present project).run e s lock).value
        listed rows answers := by
  refine ⟨calls_eq_map_exchanges _ s lock, ?_⟩
  obtain ⟨asked, run⟩ := listedContainers_exchanges (e := e) project s lock
  generalize (e (.listJobs project) s).1 = listed at asked run
  generalize (e (.listJobs project) s).2 = s' at run
  rw [jobs, exchanges_bind, run_bind, asked, run]
  cases h : listed.success? with
  | none =>
    -- There are no rows to ask about.
    have failed (reply : Reply) (ok : listed = .ok reply) : reply.exitCode ≠ 0 := by
      intro success
      rw [Answer.success?_eq_some_iff.2 ⟨ok, success⟩] at h
      cases h
    refine ⟨listed, [], [], rfl, rfl, ?_, rfl, ?_, ?_, fun _ => ⟨rfl, rfl⟩⟩
    · exact fun reply ok success => absurd success (failed reply ok)
    · exact fun _ _ => List.nil_sublist _
    · exact fun j hj => absurd hj List.not_mem_nil
  | some reply =>
    obtain ⟨rfl, success⟩ := Answer.success?_eq_some_iff.1 h
    obtain ⟨answers, answered, exchanges, told⟩ := jobsOf_exchanges (e := e) present
      (Listing.containers reply.stdout project) s' lock
    rw [Option.elim_some]
    dsimp only
    rw [exchanges, told]
    refine ⟨.ok reply, _, answers, rfl, answered, ?_, rfl, ?_, ?_, ?_⟩
    · rintro _ ⟨⟩ -
      rfl
    · rintro _ ⟨⟩
      exact (keys_sublist present _ answers).trans (keys_containers_sublist reply.stdout project)
    · intro j hj
      obtain ⟨⟨row, answer⟩, hy, tells⟩ := List.mem_filterMap.1 hj
      obtain ⟨proper, belongs⟩ := Listing.mem_containers (List.of_mem_zip hy).1
      exact ListedContainer.isWellFormed_of_told? proper belongs tells
    · exact fun failed => absurd success (failed reply rfl)

end Dialogue

end ContainerJobs
