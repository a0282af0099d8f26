import ContainerJobs.Proofs.Engine.InMemory
import ContainerJobs.Proofs.Launch.Arguments
import ContainerJobs.Runner.Listing

/-!
# What a listing tells

An engine in memory lists its containers in the words of a real one, and a runner
reads the list again. A bulk cancel finds the containers of
`Container.isCanceledWith` (`cancelProject_run`). A full listing has the rows of
each container (`Container.rows`), and tells the jobs of `ContainerStore.jobs`
(`jobs_run`), whatever the ids in it are.
-/

namespace ContainerJobs

namespace Label

theorem filter_ne {key value o : String} (h : o.toList.head? ≠ some 'l') :
    filter key value ≠ o := by
  rintro rfl
  exact h (by simp [filter])

end Label

namespace InMemory

/-! ## The filters of a listing -/

theorem labelFilter?_filter {key : String} (value : String) (h : '=' ∉ key.toList) :
    labelFilter? (Label.filter key value) = some (key, value) := by
  have toList : (Label.filter key value).toList =
      "label=".toList ++ (key.toList ++ '=' :: value.toList) := by
    simp [Label.filter]
  rw [labelFilter?, toList, (Text.after?_eq_some_iff).2 rfl]
  simp [Text.cut?_append h]

/-- The command that lists all containers with some labels. -/
def listCommand (labels : List (String × String)) (format : String) : Command :=
  "ps" :: "-a" :: ((labels.map fun (key, value) => Label.filter key value).flatMap
    (fun f => ["--filter", f]) ++ ["--format", format])

/-- The answer is a line for each container that has all the labels. -/
theorem engine_listCommand (s : ContainerStore) (labels : List (String × String))
    (format : String) (hl : ∀ key ∈ labels.map (·.1), '=' ∉ key.toList) (hf : format ≠ "-q") :
    engine (listCommand labels format) { store := s } =
      (.ok (succeed (String.join ((s.containers.filter fun c =>
          labels.all fun (key, value) => c.hasLabel key value).map fun c =>
            listingLine false (some format) c ++ "\n"))), { store := s }) := by
  set filters := labels.map fun (key, value) => Label.filter key value with hfilters
  -- Every filter begins with `label=`, so it is not taken for an option.
  have not_mem {o : String} (h : o.toList.head? ≠ some 'l') : o ∉ filters := by
    rw [hfilters, List.mem_map]
    rintro ⟨l, -, heq⟩
    exact Label.filter_ne h heq
  have not_mem_words {o : String} (h : o.toList.head? ≠ some 'l') (hne : o ≠ "--filter") :
      o ∉ filters.flatMap fun f => ["--filter", f] := by
    simp only [List.mem_flatMap, List.mem_cons, List.not_mem_nil, or_false, not_exists, not_and,
      not_or]
    exact fun f hfm => ⟨hne, fun heq => not_mem h (heq ▸ hfm)⟩
  have values : optionValues "--filter" (listCommand labels format) = filters := by
    rw [listCommand, optionValues_cons_of_ne (by decide), optionValues_cons_of_ne (by decide),
      ← hfilters, optionValues_flatMap (not_mem (by decide)), optionValues_cons_of_ne (by decide)]
    simp [optionValues]
  have formats : optionValues "--format" (listCommand labels format) = [format] := by
    rw [listCommand, optionValues_cons_of_ne (by decide), optionValues_cons_of_ne (by decide),
      ← hfilters, optionValues_append_of_not_mem (not_mem_words (by decide) (by decide)),
      optionValues_cons_self]
    simp [optionValues]
  have all : (listCommand labels format).contains "-a" = true := by
    simp [listCommand]
  have quiet : (listCommand labels format).contains "-q" = false := by
    rw [Bool.eq_false_iff, Ne, List.contains_iff_mem, listCommand, ← hfilters]
    simp only [List.mem_cons, List.mem_append, List.not_mem_nil, or_false, not_or]
    exact ⟨by decide, by decide, not_mem_words (by decide) (by decide), by decide, hf.symm⟩
  have read : filters.filterMap labelFilter? = labels := by
    rw [hfilters, List.filterMap_map]
    refine (List.filterMap_congr fun l h => ?_).trans List.filterMap_some
    exact labelFilter?_filter l.2 (hl l.1 (List.mem_map_of_mem h))
  change ((Except.ok (list s (listCommand labels format)) : Answer),
    ({ store := s } : InMemory)) = _
  rw [list, values, formats, all, quiet, read]
  simp

/-! ## The lines of a listing -/

theorem lines_join (line : Container → String) (cs : List Container) :
    Text.lines (String.join (cs.map fun c => line c ++ "\n")).toList =
      cs.flatMap fun c => Text.lines ((line c).toList ++ ['\n']) := by
  rw [String.toList_join, List.flatMap_map, ← Text.lines_flatMap]
  simp

end InMemory

/-! ## Bulk cancels -/

/-- The container bears the labels that a listing for a project, or for all, asks
    for. -/
def Container.isMarkedFor (c : Container) (project : Option String) : Bool :=
  c.hasLabel Label.managed "true" && project.all fun p =>
    c.hasLabel Label.project (Label.sanitize p)

/-- A bulk cancel for a project takes the container: it bears the label of the
    project and, as far as a row tells one, its id. -/
def Container.isCanceledWith (c : Container) (project : String) : Bool :=
  c.isMarkedFor (some project) &&
    (Text.trim (c.label Label.rawProject) == "" || Text.trim (c.label Label.rawProject) == project)

namespace InMemory

variable {s : ContainerStore}

theorem filterMap_ite_eq_map_filter {α β : Type} (p : α → Bool) (f : α → β) (l : List α) :
    l.filterMap (fun a => if p a = true then some (f a) else none) = (l.filter p).map f := by
  induction l with
  | nil => rfl
  | cons a l ih =>
    cases h : p a <;> simp [h, ih]

/-- A short id is read from a listing as it is. -/
theorem shortId_chars (h : s.ShortIdsApart) {c : Container} (hc : c ∈ s.containers) :
    (∀ d ∈ c.shortId.toList, Label.isLegal d = true) ∧ c.shortId ≠ "" := by
  obtain ⟨n, hn, hid⟩ := h.numbered.exists_number hc
  have short : c.shortId.toList = ContainerStore.hexNumber 12 n := by
    rw [Container.shortId, String.toList_ofList, hid,
      ContainerStore.take_idOf (Nat.lt_of_le_of_lt hn h.few)]
  rw [short]
  refine ⟨fun d hd => ?_, fun heq => ?_⟩
  · obtain ⟨k, hk, rfl⟩ := ContainerStore.eq_digitChar_of_mem_hexNumber hd
    exact JobKey.isLegal_digitChar hk
  · have length := ContainerStore.length_hexNumber (by decide) (Nat.lt_of_le_of_lt hn h.few)
    simp [← short, heq] at length

theorem cancelIds_reply (h : s.ShortIdsApart) {cs : List Container} (sub : cs ⊆ s.containers)
    (plain : ∀ c ∈ cs, '\n' ∉ (c.label Label.rawProject).toList) (project : String) :
    Listing.cancelIds (String.join (cs.map fun c =>
        listingLine false (some Listing.cancelFormat) c ++ "\n")) project =
      (cs.filter fun c => Text.trim (c.label Label.rawProject) == "" ||
        Text.trim (c.label Label.rawProject) == project).map (·.shortId) := by
  have line (c : Container) : (listingLine false (some Listing.cancelFormat) c).toList =
      c.shortId.toList ++ Listing.separator :: (c.label Label.rawProject).toList := by
    have : Listing.cancelFormat ≠ Listing.format := by decide
    simp [listingLine, this, Listing.row]
  have ended : ∀ c ∈ cs, '\n' ∉ (listingLine false (some Listing.cancelFormat) c).toList := by
    intro c hc
    rw [line, List.mem_append, List.mem_cons, not_or, not_or]
    exact ⟨Label.not_mem_of_isLegal (shortId_chars h (sub hc)).1 rfl, by decide, plain c hc⟩
  have rows : (cs.flatMap fun c => Text.lines
      ((listingLine false (some Listing.cancelFormat) c).toList ++ ['\n'])) =
      cs.map fun c => Text.chomp (listingLine false (some Listing.cancelFormat) c).toList := by
    rw [← List.flatMap_pure_eq_map]
    exact List.flatMap_congr fun c hc => Text.lines_append (ended c hc)
  rw [Listing.cancelIds, lines_join, rows, List.filterMap_map, ← filterMap_ite_eq_map_filter]
  refine List.filterMap_congr fun c hc => ?_
  obtain ⟨legal, ne⟩ := shortId_chars h (sub hc)
  -- A carriage return at the end of the id goes with the line end, or else is trimmed.
  have chomped : Text.chomp (listingLine false (some Listing.cancelFormat) c).toList =
      c.shortId.toList ++ Listing.separator :: Text.chomp (c.label Label.rawProject).toList := by
    rw [line, Text.chomp_append (List.cons_ne_nil _ _), Text.chomp_cons_of_ne (by decide)]
  have cut : Listing.separator ∉ c.shortId.toList := Label.not_mem_of_isLegal legal rfl
  simp only [Function.comp_apply, chomped, Text.cut?_append cut, Label.trimmed_of_isLegal legal,
    Option.getD_some, Text.trimmed_chomp, String.ofList_toList, ← Text.trim.eq_1, ne, ne_eq,
    not_false_eq_true, true_and, Bool.or_eq_true, beq_iff_eq]

theorem engine_listForCancel (s : ContainerStore) (project : String) :
    engine (.listForCancel project) { store := s } =
      (.ok (succeed (String.join ((s.containers.filter (·.isMarkedFor (some project))).map fun c =>
          listingLine false (some Listing.cancelFormat) c ++ "\n"))), { store := s }) := by
  have keys : ∀ key ∈ [Label.managed, Label.project], '=' ∉ key.toList := by decide
  have reply := engine_listCommand s [(Label.managed, "true"),
    (Label.project, Label.sanitize project)] Listing.cancelFormat keys (by decide)
  simp only [List.all_cons, List.all_nil, Bool.and_true] at reply
  exact reply

/-- A bulk cancel removes the containers that it takes, and changes no other. -/
theorem cancelProject_run (h : s.ShortIdsApart) {project : String}
    (plain : ∀ c ∈ s.containers, c.isMarkedFor (some project) = true →
      '\n' ∉ (c.label Label.rawProject).toList)
    (lock : StartLock) : ((Dialogue.cancelProject project).run engine { store := s } lock).engine =
      { store :=
        { s with containers := s.containers.filter fun c => !c.isCanceledWith project } } := by
  have ids := cancelIds_reply h
    (List.filter_subset_self (p := (·.isMarkedFor (some project))) s.containers)
    (fun c hc => plain c (List.mem_filter.1 hc).1 (List.mem_filter.1 hc).2) project
  have both : ((s.containers.filter (·.isMarkedFor (some project))).filter fun c =>
      Text.trim (c.label Label.rawProject) == "" ||
        Text.trim (c.label Label.rawProject) == project) =
      s.containers.filter (·.isCanceledWith project) := by
    rw [List.filter_filter]
    exact List.filter_congr fun c _ => Bool.and_comm _ _
  rw [both] at ids
  simp only [Dialogue.cancelProject, Dialogue.command_bind, Dialogue.run_ask,
    engine_listForCancel, Answer.success?, isSuccess_succeed, if_true, stdout_succeed]
  rw [ids]
  have removed := remove_stop_shortIds h (·.isCanceledWith project) rfl
  -- Without ids there is no command, which makes no difference to the store.
  cases chosen : (s.containers.filter (·.isCanceledWith project)).map (·.shortId) with
  | nil =>
    have none : s.containers.filter (fun c => !c.isCanceledWith project) = s.containers := by
      rw [List.map_eq_nil_iff, List.filter_eq_nil_iff] at chosen
      exact List.filter_eq_self.2 fun c hc => by simpa using chosen c hc
    rw [none]
    rfl
  | cons id rest =>
    rw [chosen] at removed
    exact removed

end InMemory

/-! ## Full listings -/

/-- The rows of the container in a full listing, of one project or of all, as a
    runner reads them. An id with a line feed in it breaks the row into several. -/
def Container.rows (c : Container) (project : Option String) : List ListedContainer :=
  Listing.containers (InMemory.listingLine false (some Listing.format) c ++ "\n") project

namespace ContainerStore

/-- The rows of a full listing, each with the container that it is of. -/
def rows (s : ContainerStore) (project : Option String) : List (Container × ListedContainer) :=
  (s.containers.filter (·.isMarkedFor project)).flatMap fun c => (c.rows project).map (c, ·)

/-- The job of a row, as the row and an inspection tell it. -/
def job? (s : ContainerStore) (present : Instant) (row : ListedContainer) : Option JobInfo :=
  (s.presence row.name).state?.map (row.job present)

/-- The jobs of a full listing, each with the container whose row told it. -/
def jobs (s : ContainerStore) (present : Instant) (project : Option String) :
    List (Container × JobInfo) :=
  (s.rows project).filterMap fun row => (s.job? present row.2).map (row.1, ·)

variable {s : ContainerStore} {present : Instant} {project : Option String}

theorem mem_rows {x : Container × ListedContainer} :
    x ∈ s.rows project ↔
      x.1 ∈ s.containers ∧ x.1.isMarkedFor project = true ∧ x.2 ∈ x.1.rows project := by
  obtain ⟨c, row⟩ := x
  simp [rows, and_assoc]

theorem mem_jobs {x : Container × JobInfo} :
    x ∈ s.jobs present project ↔
      ∃ row, (x.1, row) ∈ s.rows project ∧ s.job? present row = some x.2 := by
  obtain ⟨c, j⟩ := x
  simp [jobs]

theorem job?_of_find?_eq_some {c : Container} {row : ListedContainer}
    (found : s.find? row.name = some c) :
    s.job? present row = c.presence.state?.map (row.job present) := by
  rw [job?, presence, found]
  rfl

theorem map_rows (s : ContainerStore) (project : Option String) : (s.rows project).map (·.2) =
    (s.containers.filter (·.isMarkedFor project)).flatMap fun c => c.rows project := by
  simp [rows, List.map_flatMap, Function.comp_def]

theorem map_jobs (s : ContainerStore) (present : Instant) (project : Option String) :
    (s.jobs present project).map (·.2) =
      ((s.rows project).map (·.2)).filterMap (s.job? present) := by
  rw [jobs, List.map_filterMap, List.filterMap_map]
  refine List.filterMap_congr fun row _ => ?_
  simp [Function.comp_def]

end ContainerStore

namespace InMemory

theorem containers_reply (cs : List Container) (project : Option String) :
    Listing.containers (String.join (cs.map fun c =>
        listingLine false (some Listing.format) c ++ "\n")) project =
      cs.flatMap fun c => c.rows project := by
  simp only [Listing.containers, lines_join, List.filterMap_flatMap, List.filter_flatMap,
    Container.rows, String.toList_append]
  rfl

theorem engine_listJobs (s : ContainerStore) (project : Option String) :
    engine (.listJobs project) { store := s } =
      (.ok (succeed (String.join ((s.containers.filter (·.isMarkedFor project)).map fun c =>
          listingLine false (some Listing.format) c ++ "\n"))), { store := s }) := by
  cases project with
  | none =>
    have keys : ∀ key ∈ [Label.managed], '=' ∉ key.toList := by decide
    have reply := engine_listCommand s [(Label.managed, "true")] Listing.format keys (by decide)
    simp only [List.all_cons, List.all_nil] at reply
    exact reply
  | some p =>
    have keys : ∀ key ∈ [Label.managed, Label.project], '=' ∉ key.toList := by decide
    have reply := engine_listCommand s [(Label.managed, "true"),
      (Label.project, Label.sanitize p)] Listing.format keys (by decide)
    simp only [List.all_cons, List.all_nil, Bool.and_true] at reply
    exact reply

@[simp] theorem listedContainers_run (s : ContainerStore) (project : Option String)
    (lock : StartLock) : (Dialogue.listedContainers project).run engine { store := s } lock =
      { value := (s.rows project).map (·.2), engine := { store := s }, lock,
        calls := [.listJobs project] } := by
  simp only [Dialogue.listedContainers, Dialogue.command_bind, Dialogue.run_ask,
    engine_listJobs, Answer.success?, isSuccess_succeed, if_true, stdout_succeed,
    containers_reply, ContainerStore.map_rows, Dialogue.run_pure]

theorem jobsOf_run (s : ContainerStore) (present : Instant) (lock : StartLock)
    (rows : List ListedContainer) :
    ((Dialogue.jobsOf present rows).run engine { store := s } lock).value =
        rows.filterMap (s.job? present) ∧
      ((Dialogue.jobsOf present rows).run engine { store := s } lock).engine =
        { store := s } := by
  induction rows with
  | nil => exact ⟨rfl, rfl⟩
  | cons row rows ih =>
    obtain ⟨values, store⟩ := ih
    simp only [Dialogue.jobsOf, Dialogue.run_bind, observe_run, Dialogue.run_pure, values, store,
      and_true]
    rw [show (s.presence row.name).state?.map (row.job present) = s.job? present row from rfl]
    cases hj : s.job? present row <;> simp [hj]

/-- A listing tells the jobs of the rows, and changes nothing. -/
theorem jobs_run (s : ContainerStore) (present : Instant) (project : Option String)
    (lock : StartLock) :
    ((Dialogue.jobs present project).run engine { store := s } lock).value =
        (s.jobs present project).map (·.2) ∧
      ((Dialogue.jobs present project).run engine { store := s } lock).engine =
        { store := s } := by
  obtain ⟨values, store⟩ := jobsOf_run s present lock ((s.rows project).map (·.2))
  simp only [Dialogue.jobs, Dialogue.run_bind, listedContainers_run]
  exact ⟨values.trans (s.map_jobs present project).symm, store⟩

end InMemory

end ContainerJobs
