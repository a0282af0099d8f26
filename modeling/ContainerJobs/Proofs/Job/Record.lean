import ContainerJobs.Job.Descriptor
import ContainerJobs.Job.Details
import ContainerJobs.Proofs.Json.Record
import ContainerJobs.Proofs.Time.Reading
import ContainerJobs.RunnerInfo
import ContainerJobs.Task.Instance

/-!
# The records of jobs are read back

Each record lists its fields (`JobInfo.recordFields` and so on), and its reader and writer
go along this list (`JobInfo.isRecord` and so on). So whatever a record was read from, it
is read as the same record from what is written for it. Only its free-form parts must have
no numbers but 64-bit integers, since others are kept in double precision.
-/

namespace ContainerJobs

open Reader

variable {depth : Nat}

/-! ## Times and names -/

theorem Instant.restores :
    Restores Instant.reader Instant.toJson (fun _ => True) depth := by
  intro n t _ read _
  obtain ⟨s, -, read⟩ := Option.bind_eq_some_iff.1 read
  refine ⟨.string _, ?_⟩
  rw [toJson, Node.ofJson, reader, Reader.string, Option.bind_some]
  exact ofRelaxed?_rfc3339 (isRegular_of_ofRelaxed? read)

theorem JobStatus.restores :
    Restores JobStatus.reader JobStatus.toJson (fun _ => True) depth :=
  restores_name ofName?_name

theorem RunnerStatus.ofName?_name (s : RunnerStatus) : ofName? s.name = some s := by
  cases s <;> decide

/-! ## One job -/

/-- The fields of a job. -/
def JobInfo.recordFields : List (Reader.Field JobInfo) :=
  [.required "id" Reader.string .string (·.id),
    .required "project_id" Reader.string .string (·.key.project),
    .required "trajectory_id" Reader.string .string (·.key.trajectory),
    .required "status" JobStatus.reader JobStatus.toJson (·.status),
    .required "enqueued_at" Instant.reader Instant.toJson (·.enqueuedAt),
    .optional "started_at" Instant.reader Instant.toJson (·.startedAt),
    .optional "ended_at" Instant.reader Instant.toJson (·.endedAt)]

theorem JobInfo.isRecord : IsRecord JobInfo.reader JobInfo.toJson recordFields := by
  refine .of_build _ (fun _ _ => rfl) (fun d l j => ?_) (fun j => ?_) (by decide)
  · split
    · next heq =>
      cases heq
      obtain ⟨id, ⟨project, trajectory⟩, status, enqueuedAt, startedAt, endedAt⟩ := j
      simp [recordFields, Field.required, Field.optional, Option.bind_eq_some_iff]
      grind
    · next other =>
      simp only [Prod.mk.injEq] at other
      simp [recordFields, List.forall₂_cons_left_iff]
      grind
  · rcases j with ⟨id, key, status, enqueuedAt, _ | startedAt, _ | endedAt⟩ <;> rfl

theorem JobInfo.restores : Restores JobInfo.reader JobInfo.toJson (fun _ => True) depth := by
  refine isRecord.restores ?_
  simp only [recordFields, List.forall_mem_cons]
  exact ⟨fun _ _ => Field.restores_required_any restores_string,
    fun _ _ => Field.restores_required_any restores_string,
    fun _ _ => Field.restores_required_any restores_string,
    fun _ _ => Field.restores_required_any JobStatus.restores,
    fun _ _ => Field.restores_required_any Instant.restores,
    fun _ _ => Field.restores_optional_any Instant.restores nofun,
    fun _ _ => Field.restores_optional_any Instant.restores nofun, List.forall_mem_nil _⟩

/-! ## Many jobs -/

namespace StatusSummary

theorem mem_of_lookup_eq_some {l : List (JobStatus × Nat)} {status : JobStatus} {n : Nat}
    (h : l.lookup status = some n) : (status, n) ∈ l := by
  obtain ⟨front, rest, rfl, -⟩ := List.lookup_eq_some_iff.1 h
  exact List.mem_append_right _ List.mem_cons_self

/-- Reads the counts. -/
def countsReader : Reader (JobStatus → Option Nat) := fun depth n =>
  (Reader.keyed JobStatus.ofName? Reader.unsigned depth n).map fun l status =>
    l.reverse.lookup status

/-- The counts of the statuses that have one. -/
def pairs (counts : JobStatus → Option Nat) : List (JobStatus × Nat) :=
  JobStatus.all.filterMap fun status => (counts status).map (status, ·)

/-- Writes the counts. -/
def countsToJson (counts : JobStatus → Option Nat) : Json :=
  .object (JobStatus.all.filterMap fun status =>
    (counts status).map fun n => (status.name, .nat n))

theorem countsToJson_eq (counts : JobStatus → Option Nat) :
    countsToJson counts = .object ((pairs counts).map fun p => (p.1.name, .nat p.2)) := by
  rw [countsToJson, pairs, List.map_filterMap]
  simp only [Option.map_map]
  rfl

theorem mem_pairs_iff {counts : JobStatus → Option Nat} {p : JobStatus × Nat} :
    p ∈ pairs counts ↔ counts p.1 = some p.2 := by
  obtain ⟨status, n⟩ := p
  simp [pairs, JobStatus.mem_all]

theorem lookup_pairs (counts : JobStatus → Option Nat) (status : JobStatus) :
    (pairs counts).reverse.lookup status = counts status := by
  cases found : (pairs counts).reverse.lookup status with
  | none =>
    rw [List.lookup_eq_none_iff] at found
    cases value : counts status with
    | none => rfl
    | some n =>
      have mem : (status, n) ∈ (pairs counts).reverse :=
        List.mem_reverse.2 (mem_pairs_iff.2 value)
      simpa using found _ mem
  | some n => exact (mem_pairs_iff.1 (List.mem_reverse.1 (mem_of_lookup_eq_some found))).symm

theorem restores_counts : Restores countsReader countsToJson (fun _ => True) depth := by
  intro n counts bounded read _
  obtain ⟨l, keyed, rfl⟩ := Option.map_eq_some_iff.1 read
  unfold Reader.keyed at keyed
  split at keyed
  · next depth members =>
    cases bounded with
    | object bounded =>
      -- Each count was read from some member.
      have each : ∀ p ∈ pairs (fun status => l.reverse.lookup status),
          Returns Reader.unsigned .nat depth p.2 := by
        intro p hp
        have mem := List.mem_reverse.1 (mem_of_lookup_eq_some (mem_pairs_iff.1 hp))
        obtain ⟨m, hm, value⟩ := mem_of_mapM_eq_some keyed p mem
        simp only [Option.bind_eq_bind, Option.bind_eq_some_iff, Option.pure_def,
          Option.some.injEq] at value
        obtain ⟨k, -, i, value, rfl⟩ := value
        exact restores_unsigned m.2 i (bounded m hm) value trivial
      rw [Returns, countsToJson_eq]
      refine ⟨.object (List.forall_mem_map.2 fun p hp => (each p hp).1), ?_⟩
      have back : (pairs fun status => l.reverse.lookup status).mapM _ = some _ :=
        mapM_eq_some_map (f := fun p => do
          let k ← JobStatus.ofName? p.1.name
          let v ← Reader.unsigned depth (.ofJson (.nat p.2))
          return (k, v)) (g := id) fun p hp => by
            rw [JobStatus.ofName?_name, (each p hp).2]
            rfl
      rw [Node.ofJson, countsReader, Reader.keyed, Node.ofMembers_eq_map, List.map_map,
        List.mapM_map]
      refine Option.map_eq_some_iff.2 ⟨_, back, ?_⟩
      funext status
      rw [List.map_id, lookup_pairs]
  · cases keyed

/-- The fields of a summary. -/
def recordFields : List (Reader.Field StatusSummary) :=
  [.optional "project_id" Reader.string .string (·.project),
    .required "total" Reader.unsigned .nat (·.total),
    .required "counts" countsReader countsToJson (·.counts)]

theorem isRecord : IsRecord reader toJson recordFields := by
  refine .of_build _ (fun _ _ => rfl) (fun d l s => ?_) (fun s => ?_) (by decide)
  · split
    · next heq =>
      cases heq
      obtain ⟨project, total, counts⟩ := s
      simp [recordFields, Field.required, Field.optional, Reader.required, countsReader,
        Option.bind_eq_some_iff]
      grind
    · next other =>
      simp only [Prod.mk.injEq] at other
      simp [recordFields, List.forall₂_cons_left_iff]
      grind
  · rcases s with ⟨_ | project, total, counts⟩ <;> rfl

theorem restores : Restores reader toJson (fun _ => True) depth := by
  refine isRecord.restores ?_
  simp only [recordFields, List.forall_mem_cons]
  exact ⟨fun _ _ => Field.restores_optional_any restores_string nofun,
    fun _ _ => Field.restores_required_any restores_unsigned,
    fun _ _ => Field.restores_required_any restores_counts, List.forall_mem_nil _⟩

end StatusSummary

/-! ## Reports -/

/-- The free-form data of the section have only 64-bit integers for numbers. -/
def Section.IsWhole (s : Section) : Prop :=
  (∀ data ∈ s.data, ∀ m ∈ data, m.2.IsWhole) ∧ ∀ items ∈ s.items, ∀ v ∈ items, v.IsWhole

/-- The free-form data of the report have only 64-bit integers for numbers. -/
def JobDetails.IsWhole (d : JobDetails) : Prop :=
  (∀ s ∈ d.sections, s.IsWhole) ∧ d.rawData.IsWhole

/-- The fields of a section. -/
def Section.recordFields : List (Reader.Field Section) :=
  [.required "name" Reader.string .string (·.name),
    .required "display_name" Reader.string .string (·.displayName),
    .optional "data" Reader.object .object (·.data),
    .optional "items" Reader.value.list .array (·.items)]

theorem Section.isRecord : IsRecord Section.reader Section.toJson recordFields := by
  refine .of_build _ (fun _ _ => rfl) (fun d l s => ?_) (fun s => ?_) (by decide)
  · split
    · next heq =>
      cases heq
      obtain ⟨name, displayName, data, items⟩ := s
      simp [recordFields, Field.required, Field.optional, Option.bind_eq_some_iff]
    · next other =>
      simp only [Prod.mk.injEq] at other
      simp [recordFields, List.forall₂_cons_left_iff]
      grind
  · rcases s with ⟨name, displayName, _ | data, _ | items⟩ <;> rfl

theorem Section.restores : Restores Section.reader Section.toJson IsWhole depth := by
  refine isRecord.restores ?_
  simp only [recordFields, List.forall_mem_cons]
  exact ⟨fun _ _ => Field.restores_required_any restores_string,
    fun _ _ => Field.restores_required_any restores_string,
    fun _ _ => Field.restores_optional restores_object nofun fun _ whole => whole.1,
    fun _ _ => Field.restores_optional restores_items nofun fun _ whole => whole.2,
    List.forall_mem_nil _⟩

/-- The fields of a report. -/
def JobDetails.recordFields : List (Reader.Field JobDetails) :=
  [.required "id" Reader.string .string (·.id),
    .required "project_id" Reader.string .string (·.key.project),
    .required "trajectory_id" Reader.string .string (·.key.trajectory),
    .required "status" JobStatus.reader JobStatus.toJson (·.status),
    .optional "enqueued_at" Instant.reader Instant.toJson (·.enqueuedAt),
    .optional "started_at" Instant.reader Instant.toJson (·.startedAt),
    .optional "ended_at" Instant.reader Instant.toJson (·.endedAt),
    .required "sections" Section.reader.list (fun l => .array (l.map Section.toJson)) (·.sections),
    .required "raw_data" Reader.value (fun v => v) (·.rawData),
    .optional "error" Reader.string .string (·.error)]

theorem JobDetails.isRecord : IsRecord JobDetails.reader JobDetails.toJson recordFields := by
  refine .of_build _ (fun _ _ => rfl) (fun d l r => ?_) (fun r => ?_) (by decide)
  · split
    · next heq =>
      cases heq
      obtain ⟨id, ⟨project, trajectory⟩, status, enqueuedAt, startedAt, endedAt, sections, rawData,
        error⟩ := r
      simp [recordFields, Field.required, Field.optional, Option.bind_eq_some_iff]
      grind
    · next other =>
      simp only [Prod.mk.injEq] at other
      simp [recordFields, List.forall₂_cons_left_iff]
      grind
  · rcases r with ⟨id, key, status, _ | enqueuedAt, _ | startedAt, _ | endedAt, sections, rawData,
      _ | error⟩ <;> rfl

theorem JobDetails.restores : Restores JobDetails.reader JobDetails.toJson IsWhole depth := by
  refine isRecord.restores ?_
  simp only [recordFields, List.forall_mem_cons]
  exact ⟨fun _ _ => Field.restores_required_any restores_string,
    fun _ _ => Field.restores_required_any restores_string,
    fun _ _ => Field.restores_required_any restores_string,
    fun _ _ => Field.restores_required_any JobStatus.restores,
    fun _ _ => Field.restores_optional_any Instant.restores nofun,
    fun _ _ => Field.restores_optional_any Instant.restores nofun,
    fun _ _ => Field.restores_optional_any Instant.restores nofun,
    fun _ _ => Field.restores_required (Restores.list fun _ => Section.restores)
      fun _ whole => whole.1,
    fun _ _ => Field.restores_required restores_value fun _ whole => whole.2,
    fun _ _ => Field.restores_optional_any restores_string nofun, List.forall_mem_nil _⟩

/-! ## Runner health -/

/-- The free-form data have only 64-bit integers for numbers. -/
def RunnerInfo.IsWhole (i : RunnerInfo) : Prop :=
  ∀ m ∈ i.data, m.2.IsWhole

/-- The fields of the information about a runner. -/
def RunnerInfo.recordFields : List (Reader.Field RunnerInfo) :=
  [.required "runner_type" Reader.string .string (·.runnerType),
    .required "status" (Reader.name RunnerStatus.ofName?) (fun s => .string s.name) (·.status),
    .withDefault "data" Reader.object [] .object (·.data)]

theorem RunnerInfo.isRecord : IsRecord RunnerInfo.reader RunnerInfo.toJson recordFields := by
  refine .of_build _ (fun _ _ => rfl) (fun d l i => ?_) (fun i => rfl) (by decide)
  split
  · next heq =>
    cases heq
    obtain ⟨runnerType, status, data⟩ := i
    simp [recordFields, Field.required, Field.withDefault, Option.bind_eq_some_iff]
  · next other =>
    simp only [Prod.mk.injEq] at other
    simp [recordFields, List.forall₂_cons_left_iff]
    grind

/-- Data that are missing are written as an empty object, so there must be room for it. -/
theorem RunnerInfo.restores : Restores RunnerInfo.reader RunnerInfo.toJson IsWhole (depth + 2) := by
  refine isRecord.restores ?_
  simp only [recordFields, List.forall_mem_cons]
  refine ⟨fun _ _ => Field.restores_required_any restores_string,
    fun _ _ => Field.restores_required_any (restores_name RunnerStatus.ofName?_name),
    fun d room => ?_, List.forall_mem_nil _⟩
  cases room
  exact Field.restores_withDefault restores_object ⟨.object nofun, rfl⟩ fun _ whole => whole

/-! ## Tasks and calls -/

/-- The fields of a task instance. -/
def TaskInstance.recordFields : List (Reader.Field TaskInstance) :=
  [.required "repo" Reader.string .string (·.repo),
    .orNull "base_commit" Reader.string .string (·.baseCommit),
    .orNull "image" Reader.string .string (·.image)]

theorem TaskInstance.isRecord : IsRecord TaskInstance.reader TaskInstance.toJson recordFields := by
  refine .of_build _ (fun _ _ => rfl) (fun d l i => ?_) (fun i => rfl) (by decide)
  split
  · next heq =>
    cases heq
    obtain ⟨repo, baseCommit, image⟩ := i
    simp [recordFields, Field.required, Field.orNull, Option.bind_eq_some_iff]
  · next other =>
    simp only [Prod.mk.injEq] at other
    simp [recordFields, List.forall₂_cons_left_iff]
    grind

theorem TaskInstance.restores :
    Restores TaskInstance.reader TaskInstance.toJson (fun _ => True) depth := by
  refine isRecord.restores ?_
  simp only [recordFields, List.forall_mem_cons]
  exact ⟨fun _ _ => Field.restores_required_any restores_string,
    fun _ _ => Field.restores_orNull restores_string nofun fun _ _ _ _ => trivial,
    fun _ _ => Field.restores_orNull restores_string nofun fun _ _ _ _ => trivial,
    List.forall_mem_nil _⟩

/-- The fields of a function. -/
def JobFunction.recordFields : List (Reader.Field JobFunction) :=
  [.required "module" Reader.string .string (·.module),
    .required "name" Reader.string .string (·.name)]

theorem JobFunction.isRecord : IsRecord JobFunction.reader JobFunction.toJson recordFields := by
  refine .of_build _ (fun _ _ => rfl) (fun d l f => ?_) (fun f => rfl) (by decide)
  split
  · next heq =>
    cases heq
    obtain ⟨module, name⟩ := f
    simp [recordFields, Field.required, Option.bind_eq_some_iff]
  · next other =>
    simp only [Prod.mk.injEq] at other
    simp [recordFields, List.forall₂_cons_left_iff]
    grind

theorem JobFunction.restores :
    Restores JobFunction.reader JobFunction.toJson (fun _ => True) depth := by
  refine isRecord.restores ?_
  simp only [recordFields, List.forall_mem_cons]
  exact ⟨fun _ _ => Field.restores_required_any restores_string,
    fun _ _ => Field.restores_required_any restores_string, List.forall_mem_nil _⟩

namespace JobDescriptor

/-- Writes the arguments of a call. -/
def argsToJson (a : JobKey × Option Nat) : Json :=
  .object ([("project_id", .string a.1.project), ("trajectory_id", .string a.1.trajectory)] ++
    (a.2.map fun n => ("node_id", Json.nat n)).toList)

/-- The fields of the arguments of a call. -/
def argsFields : List (Reader.Field (JobKey × Option Nat)) :=
  [.required "project_id" Reader.string .string (·.1.project),
    .required "trajectory_id" Reader.string .string (·.1.trajectory),
    .optional "node_id" Reader.unsigned .nat (·.2)]

theorem isRecord_args : IsRecord argsReader argsToJson argsFields := by
  refine .of_build _ (fun _ _ => rfl) (fun d l a => ?_) (fun a => ?_) (by decide)
  · split
    · next heq =>
      cases heq
      obtain ⟨⟨project, trajectory⟩, node⟩ := a
      simp [argsFields, Field.required, Field.optional, Option.bind_eq_some_iff]
    · next other =>
      simp only [Prod.mk.injEq] at other
      simp [argsFields, List.forall₂_cons_left_iff]
      grind
  · rcases a with ⟨key, _ | node⟩ <;> rfl

theorem restores_args : Restores argsReader argsToJson (fun _ => True) depth := by
  refine isRecord_args.restores ?_
  simp only [argsFields, List.forall_mem_cons]
  exact ⟨fun _ _ => Field.restores_required_any restores_string,
    fun _ _ => Field.restores_required_any restores_string,
    fun _ _ => Field.restores_optional_any restores_unsigned nofun, List.forall_mem_nil _⟩

/-- The fields of a descriptor. -/
def recordFields : List (Reader.Field JobDescriptor) :=
  [.required "module" Reader.string .string (·.module),
    .required "function" Reader.string .string (·.function),
    .required "args" argsReader argsToJson fun d => (d.key, d.node)]

theorem isRecord : IsRecord reader toJson recordFields := by
  refine .of_build _ (fun _ _ => rfl) (fun d l c => ?_) (fun c => rfl) (by decide)
  split
  · next heq =>
    cases heq
    obtain ⟨module, function, key, node⟩ := c
    simp [recordFields, Field.required, Option.bind_eq_some_iff]
    grind
  · next other =>
    simp only [Prod.mk.injEq] at other
    simp [recordFields, List.forall₂_cons_left_iff]
    grind

theorem restores : Restores reader toJson (fun _ => True) depth := by
  refine isRecord.restores ?_
  simp only [recordFields, List.forall_mem_cons]
  exact ⟨fun _ _ => Field.restores_required_any restores_string,
    fun _ _ => Field.restores_required_any restores_string,
    fun _ _ => Field.restores_required_any restores_args, List.forall_mem_nil _⟩

end JobDescriptor

/-! ## All records -/

/-- A record that was read from a text, in whatever spelling, is read as the same record
    from the text that is written for it. -/
theorem recordTexts_restored :
    RestoresText JobStatus.reader JobStatus.toJson (fun _ => True) ∧
    RestoresText JobInfo.reader JobInfo.toJson (fun _ => True) ∧
    RestoresText Section.reader Section.toJson Section.IsWhole ∧
    RestoresText JobDetails.reader JobDetails.toJson JobDetails.IsWhole ∧
    RestoresText RunnerInfo.reader RunnerInfo.toJson RunnerInfo.IsWhole ∧
    RestoresText StatusSummary.reader StatusSummary.toJson (fun _ => True) ∧
    RestoresText TaskInstance.reader TaskInstance.toJson (fun _ => True) ∧
    RestoresText JobFunction.reader JobFunction.toJson (fun _ => True) ∧
    RestoresText JobDescriptor.reader JobDescriptor.toJson (fun _ => True) :=
  ⟨JobStatus.restores.text, JobInfo.restores.text, Section.restores.text, JobDetails.restores.text,
    RunnerInfo.restores.text, StatusSummary.restores.text, TaskInstance.restores.text,
    JobFunction.restores.text, JobDescriptor.restores.text⟩

/-- A job as an array, with an object for its status, a leap second, and blanks and the
    name of a zone in its times. -/
def JobInfo.sampleText : String :=
  "[\"a-1\", \"p\\u0000\", \"t\", \x7b\"completed\": null\x7d, " ++
    "\"2016-12-31 23:59:60.5+00:00\", \" +12345 - 1-2t3:4: 5 utc \", null]"

/-- The job that is read from it. -/
def JobInfo.sampleRead : JobInfo where
  id := "a-1"
  key := { project := "p\x00", trajectory := "t" }
  status := .completed
  enqueuedAt := { second := 1483228799, nano := 1500000000 }
  startedAt := some { second := 327403479845, nano := 0 }

theorem recordTexts_restored_sampleRead :
    JobInfo.reader.ofText? JobInfo.sampleText = some JobInfo.sampleRead ∧
      JobInfo.reader.ofText? JobInfo.sampleRead.toJson.render = some JobInfo.sampleRead ∧
      JobInfo.reader.ofText? JobInfo.sampleRead.toJson.pretty = some JobInfo.sampleRead := by
  have read : JobInfo.reader.ofText? JobInfo.sampleText = some JobInfo.sampleRead := by
    decide +kernel
  obtain ⟨-, restored, -⟩ := recordTexts_restored
  exact ⟨read, restored JobInfo.sampleText JobInfo.sampleRead read trivial⟩

end ContainerJobs
