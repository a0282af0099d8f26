import ContainerJobs.Proofs.Engine.Listing
import ContainerJobs.Proofs.Engine.Starting

/-!
# Rows of containers

What a runner reads from the row of a container in a full listing. As long as no
text in it has a line feed there is one row, under the name of the container
(`InMemory.name_of_mem_rows`). As long as none has a field separator
either, nothing is lost: the row is `Container.listed` (`rows_of_isListable`), and a
listing tells the jobs of the containers (`jobs_of_forall_isListable`).
-/

namespace ContainerJobs

/-- The text has none of the characters that a listing puts between texts. -/
def Listing.IsPlain (s : String) : Prop :=
  '\n' ∉ s.toList ∧ separator ∉ s.toList

/-- The labels that a row tells. -/
def Label.listed : List String :=
  [project, trajectory, rawProject, rawTrajectory]

theorem Label.IsValue.isPlain {s : String} (h : IsValue s) : Listing.IsPlain s :=
  ⟨not_mem_of_isLegal h.1 rfl, not_mem_of_isLegal h.1 rfl⟩

/-- The id passes through labels and listings as it is. -/
structure JobKey.IsId (s : String) : Prop where
  /-- There is an id. -/
  ne_empty : s ≠ ""
  /-- It has no blanks at its ends. -/
  trim_eq : Text.trim s = s
  /-- It has none of the characters that a listing puts between texts. -/
  isPlain : Listing.IsPlain s

/-- Both ids of the key pass through. -/
structure JobKey.IsProper (k : JobKey) : Prop where
  /-- The project id does. -/
  project : IsId k.project
  /-- The trajectory id does. -/
  trajectory : IsId k.trajectory

namespace Container

/-- The row of the container stays on one line. -/
structure IsUnbroken (c : Container) : Prop where
  /-- The name is made of legal characters. -/
  name : Label.IsValue c.name
  /-- No label that it tells has a line feed. -/
  labels : ∀ key ∈ Label.listed, '\n' ∉ (c.label key).toList
  /-- Neither has the state. -/
  status : '\n' ∉ c.state.status.toList

/-- The texts of the container pass through a listing. -/
structure IsListable (c : Container) : Prop extends c.IsUnbroken where
  /-- There is a label for the project. -/
  project : Label.IsValue (c.label Label.project)
  /-- There is a label for the trajectory. -/
  trajectory : Label.IsValue (c.label Label.trajectory)
  /-- No label divides a field. -/
  fields : ∀ key ∈ Label.listed, Listing.separator ∉ (c.label key).toList
  /-- Neither does the state. -/
  statusField : Listing.separator ∉ c.state.status.toList

/-- The ids as given, as a row tells them. -/
def listedIds (c : Container) : JobKey where
  project := Text.trim (c.label Label.rawProject)
  trajectory := Text.trim (c.label Label.rawTrajectory)

/-- The row of the container, as a runner reads it. -/
def listed (c : Container) : ListedContainer :=
  let hasRawIds := c.listedIds.project ≠ "" && c.listedIds.trajectory ≠ ""
  { name := c.name
    key := if hasRawIds then c.listedIds
      else { project := c.label Label.project, trajectory := c.label Label.trajectory }
    hasRawIds
    createdAt := Instant.ofListing? InMemory.creationTime }

variable {c : Container} {stem : String} {k : JobKey}

/-- A listing for a project asks for the label that its id has. -/
theorem IsFor.isMarkedFor (h : c.IsFor stem k)
    (project : String) :
    c.isMarkedFor (some project) = (Label.sanitize k.project == Label.sanitize project) := by
  rw [Container.isMarkedFor, h.hasLabel_managed, Bool.true_and, Option.all_some, hasLabel,
    h.project, Option.some_beq_some]

theorem IsFor.isUnbroken (h : c.IsFor stem k)
    (ids : c.CarriesIds k) (plain : '\n' ∉ k.project.toList ∧ '\n' ∉ k.trajectory.toList)
    (status : '\n' ∉ c.state.status.toList) : c.IsUnbroken where
  name := h.isValue_name
  labels := by
    simp only [Label.listed, List.mem_cons, List.not_mem_nil, or_false]
    rintro key (rfl | rfl | rfl | rfl)
    · exact h.label_project ▸ (Label.isValue_sanitize _).isPlain.1
    · exact h.label_trajectory ▸ (Label.isValue_sanitize _).isPlain.1
    · exact ids.label_rawProject ▸ plain.1
    · exact ids.label_rawTrajectory ▸ plain.2
  status

/-- A container of a job can be listed unless something in its ids or its state is in
    the way. -/
theorem IsFor.isListable (h : c.IsFor stem k) (ids : c.CarriesIds k)
    (project : Listing.IsPlain k.project) (trajectory : Listing.IsPlain k.trajectory)
    (status : Listing.IsPlain c.state.status) : c.IsListable where
  toIsUnbroken := h.isUnbroken ids ⟨project.1, trajectory.1⟩ status.1
  project := h.label_project ▸ Label.isValue_sanitize _
  trajectory := h.label_trajectory ▸ Label.isValue_sanitize _
  fields := by
    simp only [Label.listed, List.mem_cons, List.not_mem_nil, or_false]
    rintro key (rfl | rfl | rfl | rfl)
    · exact h.label_project ▸ (Label.isValue_sanitize _).isPlain.2
    · exact h.label_trajectory ▸ (Label.isValue_sanitize _).isPlain.2
    · exact ids.label_rawProject ▸ project.2
    · exact ids.label_rawTrajectory ▸ trajectory.2
  statusField := status.2

/-- The row tells the ids as they were given. -/
theorem CarriesIds.listed_key (h : c.CarriesIds k) (proper : k.IsProper) :
    c.listed.key = k ∧ c.listed.hasRawIds = true := by
  have ids : c.listedIds = k := by
    rw [listedIds, h.label_rawProject, h.label_rawTrajectory, proper.project.trim_eq,
      proper.trajectory.trim_eq]
  have raw : (k.project ≠ "" && k.trajectory ≠ "" : Bool) = true := by
    simp [proper.project.ne_empty, proper.trajectory.ne_empty]
  simp only [listed, ids, raw, if_true, and_self]

theorem hasRawIds_listed (c : Container) : c.listed.hasRawIds =
    (c.listedIds.project != "" && c.listedIds.trajectory != "") := by
  simp [listed, bne, beq_eq_decide]

theorem key_listed_eq (c : Container) : c.listed.key =
    if c.listed.hasRawIds = true then c.listedIds
    else { project := c.label Label.project, trajectory := c.label Label.trajectory } := by
  rw [listed]

theorem key_listed_of_hasRawIds (raw : c.listed.hasRawIds = true) :
    c.listed.key = c.listedIds := by
  rw [key_listed_eq, if_pos raw]

theorem key_listed_of_not_hasRawIds (raw : ¬ c.listed.hasRawIds = true) : c.listed.key =
    { project := c.label Label.project, trajectory := c.label Label.trajectory } := by
  rw [key_listed_eq, if_neg raw]

theorem IsListable.key_ne_empty (h : c.IsListable) :
    c.listed.key.project ≠ "" ∧ c.listed.key.trajectory ≠ "" := by
  simp only [listed]
  split
  · next raw => simpa using raw
  · exact ⟨h.project.2, h.trajectory.2⟩

theorem hasLabel_managed_of_isMarkedFor {project : Option String}
    (h : c.isMarkedFor project = true) : c.hasLabel Label.managed "true" = true :=
  (Bool.and_eq_true_iff.1 h).1

/-- The container is listed for a project, or for all. -/
def isListedFor (c : Container) (project : Option String) : Bool :=
  c.isMarkedFor project && project.all c.listed.belongsTo

theorem isMarkedFor_of_isListedFor {project : Option String}
    (h : c.isListedFor project = true) : c.isMarkedFor project = true :=
  (Bool.and_eq_true_iff.1 h).1

/-- The job of the container, as its row and an inspection tell it. -/
def job? (c : Container) (present : Instant) : Option JobInfo :=
  c.presence.state?.map (c.listed.job present)

end Container

namespace InMemory

variable {c : Container}

theorem isPlain_creationTime : Listing.IsPlain creationTime := by
  simp [Listing.IsPlain, creationTime, Listing.separator]

theorem listingLine_format (c : Container) :
    (listingLine false (some Listing.format) c).toList = [Listing.separator].intercalate
      [c.name.toList, (c.label Label.project).toList, (c.label Label.trajectory).toList,
        (c.label Label.rawProject).toList, (c.label Label.rawTrajectory).toList,
        c.state.status.toList, creationTime.toList] := by
  simp [listingLine, Listing.row]

theorem listingLine_format_eq_concat (c : Container) :
    ∃ l, (listingLine false (some Listing.format) c).toList = l ++ ['C'] := by
  rw [listingLine_format]
  have time : creationTime.toList = "2024-05-01 09:59:58 +0000 UT".toList ++ ['C'] := by decide
  rw [time]
  simp only [List.intercalate_cons_cons, List.intercalate_singleton, ← List.append_assoc]
  exact ⟨_, rfl⟩

/-- The time at its end keeps a line from being taken for shorter than it is. -/
theorem dropEndWhile_listingLine (c : Container) :
    Text.dropEndWhile (fun d => d == '\r' || d == '\n')
        (Text.chomp (listingLine false (some Listing.format) c).toList) =
      (listingLine false (some Listing.format) c).toList := by
  obtain ⟨l, hl⟩ := listingLine_format_eq_concat c
  rw [Text.chomp_eq_self (by simp [hl]), hl]
  exact List.rdropWhile_concat_neg _ _ _ (by decide)

theorem rows_of_isUnbroken (h : c.IsUnbroken) (project : Option String) :
    c.rows project = (ListedContainer.ofLine? (Text.chomp
      (listingLine false (some Listing.format) c).toList)).toList.filter
        fun row => project.all row.belongsTo := by
  have unbroken : '\n' ∉ (listingLine false (some Listing.format) c).toList := by
    rw [listingLine_format]
    refine Text.not_mem_intercalate (by decide) ?_
    simp only [List.mem_cons, List.not_mem_nil, or_false]
    rintro f (rfl | rfl | rfl | rfl | rfl | rfl | rfl)
    exacts [h.name.isPlain.1, h.labels _ (by decide), h.labels _ (by decide),
      h.labels _ (by decide), h.labels _ (by decide), h.status, isPlain_creationTime.1]
  have line : Text.lines (listingLine false (some Listing.format) c ++ "\n").toList =
      [Text.chomp (listingLine false (some Listing.format) c).toList] := by
    rw [String.toList_append]
    exact Text.lines_append unbroken
  rw [Container.rows, Listing.containers, line, List.filterMap_cons, List.filterMap_nil]
  generalize ListedContainer.ofLine? _ = row?
  cases row? <;> rfl

/-- An unbroken row stands under the name of its container. -/
theorem name_of_mem_rows (h : c.IsUnbroken) {project : Option String} {row : ListedContainer}
    (hrow : row ∈ c.rows project) : row.name = c.name := by
  rw [rows_of_isUnbroken h, List.mem_filter, Option.mem_toList] at hrow
  have read := hrow.1
  -- The name comes first, so what the other fields hold cannot shift it.
  rw [ListedContainer.ofLine?, dropEndWhile_listingLine, listingLine_format,
    List.intercalate_cons_cons, List.append_assoc, List.singleton_append,
    Text.split_append h.name.isPlain.2] at read
  split at read
  · next heq =>
    obtain ⟨rfl, -⟩ := List.cons.inj heq
    rw [Option.ite_none_left_eq_some] at read
    rw [← Option.some.inj read.2]
    exact h.name.trim_eq
  · cases read

/-- The row of a container is read as it was meant. -/
theorem rows_of_isListable (h : c.IsListable) (project : Option String) :
    c.rows project = [c.listed].filter fun row => project.all row.belongsTo := by
  have split : Text.split Listing.separator (listingLine false (some Listing.format) c).toList =
      [c.name.toList, (c.label Label.project).toList, (c.label Label.trajectory).toList,
        (c.label Label.rawProject).toList, (c.label Label.rawTrajectory).toList,
        c.state.status.toList, creationTime.toList] := by
    rw [listingLine_format]
    refine Text.split_intercalate ?_ (List.cons_ne_nil _ _)
    simp only [List.mem_cons, List.not_mem_nil, or_false]
    rintro f (rfl | rfl | rfl | rfl | rfl | rfl | rfl)
    exacts [h.name.isPlain.2, h.fields _ (by decide), h.fields _ (by decide),
      h.fields _ (by decide), h.fields _ (by decide), h.statusField, isPlain_creationTime.2]
  have read : ListedContainer.ofLine? (Text.chomp
      (listingLine false (some Listing.format) c).toList) = some c.listed := by
    rw [ListedContainer.ofLine?, dropEndWhile_listingLine, split]
    simp only [← Text.trim.eq_1, h.name.trim_eq, h.project.trim_eq, h.trajectory.trim_eq,
      String.ofList_toList]
    rw [if_neg]
    · rfl
    · -- A row is passed over only if its name or one of its ids is empty.
      change ¬(c.name = "" ∨ c.listed.key.project = "" ∨ c.listed.key.trajectory = "")
      rw [not_or, not_or]
      exact ⟨h.name.2, h.key_ne_empty⟩
  rw [rows_of_isUnbroken h.toIsUnbroken, read]
  rfl

/-- Where the containers of jobs can be listed, a listing has a row for each of
    them. -/
theorem rows_of_forall_isListable {s : ContainerStore}
    (listable : ∀ c ∈ s.containers, c.hasLabel Label.managed "true" = true → c.IsListable)
    (project : Option String) :
    s.rows project =
      (s.containers.filter (·.isListedFor project)).map fun c => (c, c.listed) := by
  have row : ∀ c ∈ s.containers.filter (·.isMarkedFor project), (c.rows project).map (c, ·) =
      ([(c, c.listed)].filter fun row => project.all row.2.belongsTo) := by
    intro c hc
    obtain ⟨hc, marked⟩ := List.mem_filter.1 hc
    rw [rows_of_isListable (listable c hc (Container.hasLabel_managed_of_isMarkedFor marked))]
    cases belongs : project.all c.listed.belongsTo <;> simp [belongs]
  rw [ContainerStore.rows, List.flatMap_congr row, ← List.filter_flatMap, ← List.map_eq_flatMap,
    List.filter_map, List.filter_filter]
  exact congrArg _ (List.filter_congr fun c _ => Bool.and_comm _ _)

/-- Then a listing tells the job of each whose state can be read. -/
theorem jobs_of_forall_isListable {s : ContainerStore} (h : s.NamesDistinct)
    (listable : ∀ c ∈ s.containers, c.hasLabel Label.managed "true" = true → c.IsListable)
    (hyphens : ∀ c ∈ s.containers, c.hasLabel Label.managed "true" = true → '-' ∈ c.name.toList)
    (present : Instant) (project : Option String) :
    s.jobs present project = (s.containers.filter (·.isListedFor project)).filterMap fun c =>
      (c.job? present).map (c, ·) := by
  rw [ContainerStore.jobs, rows_of_forall_isListable listable, List.filterMap_map]
  refine List.filterMap_congr fun c hc => ?_
  obtain ⟨hc, listed⟩ := List.mem_filter.1 hc
  have managed := Container.hasLabel_managed_of_isMarkedFor
    (Container.isMarkedFor_of_isListedFor listed)
  have found : s.find? c.listed.name = some c := h.find?_of_mem hc (hyphens c hc managed)
  rw [Function.comp_apply, ContainerStore.job?_of_find?_eq_some found, Container.job?]

end InMemory

/-! ## Entries of a listing -/

section

variable {α β : Type} (f : α → Option β) (l : List α)

theorem filter_filterMap_pair (p : α → Bool) :
    (l.filterMap fun a => (f a).map (a, ·)).filter (fun x => p x.1) =
      (l.filter p).filterMap fun a => (f a).map (a, ·) := by
  rw [List.filter_filterMap, List.filterMap_filter]
  refine List.filterMap_congr fun a _ => ?_
  cases f a <;> cases h : p a <;> simp [h]

theorem map_fst_filterMap_pair :
    (l.filterMap fun a => (f a).map (a, ·)).map (·.1) = l.filter fun a => (f a).isSome := by
  rw [List.map_filterMap, ← List.filterMap_eq_filter]
  refine List.filterMap_congr fun a _ => ?_
  cases h : f a <;> simp [Option.guard, h]

theorem map_snd_filterMap_pair :
    (l.filterMap fun a => (f a).map (a, ·)).map (·.2) = l.filterMap f := by
  rw [List.map_filterMap]
  refine List.filterMap_congr fun a _ => ?_
  cases f a <;> rfl

end

end ContainerJobs
