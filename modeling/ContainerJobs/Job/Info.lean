import ContainerJobs.Job.Key
import ContainerJobs.Job.Status
import ContainerJobs.Json.Record
import ContainerJobs.Time.Reading

/-!
# Jobs in listings

What a listing says about a job, how many jobs have which status, and both as
JSON records. Members without a value are left out when a record is written.
-/

namespace ContainerJobs

/-! ## Parts that occur in several records -/

namespace Json

/-- The member with this key, or none at all. -/
def member? (key : String) (v : Option Json) : List (String × Json) :=
  (v.map fun v => (key, v)).toList

end Json

/-- Writes an instant. -/
def Instant.toJson (t : Instant) : Json := .string t.rfc3339

/-- Reads an instant. -/
def Instant.reader : Reader Instant := fun depth n =>
  (Reader.string depth n).bind fun s => Instant.ofRelaxed? s.toList

/-- Writes a status. -/
def JobStatus.toJson (s : JobStatus) : Json := .string s.name

/-- Reads a status. -/
def JobStatus.reader : Reader JobStatus := Reader.name JobStatus.ofName?

/-! ## One job -/

/-- What a listing says about a job. -/
structure JobInfo where
  /-- The id shown to people. -/
  id : String
  /-- What the job is known by. -/
  key : JobKey
  /-- The status. -/
  status : JobStatus
  /-- When the job was created. -/
  enqueuedAt : Instant
  /-- When it was started, if it was. -/
  startedAt : Option Instant := none
  /-- When it ended, if it has. -/
  endedAt : Option Instant := none
deriving DecidableEq, Repr

namespace JobInfo

/-- Writes a job. -/
def toJson (j : JobInfo) : Json :=
  .object ([("id", .string j.id), ("project_id", .string j.key.project),
      ("trajectory_id", .string j.key.trajectory), ("status", j.status.toJson),
      ("enqueued_at", j.enqueuedAt.toJson)] ++
    Json.member? "started_at" (j.startedAt.map Instant.toJson) ++
    Json.member? "ended_at" (j.endedAt.map Instant.toJson))

/-- Reads a job. -/
def reader : Reader JobInfo := fun depth n => do
  match ← Reader.fields [⟨"id", false⟩, ⟨"project_id", false⟩, ⟨"trajectory_id", false⟩,
      ⟨"status", false⟩, ⟨"enqueued_at", false⟩, ⟨"started_at", false⟩, ⟨"ended_at", false⟩]
      depth n with
  | (depth, [id, project, trajectory, status, enqueuedAt, startedAt, endedAt]) =>
    let project ← Reader.string.required depth project
    let trajectory ← Reader.string.required depth trajectory
    return {
      id := ← Reader.string.required depth id
      key := { project, trajectory }
      status := ← JobStatus.reader.required depth status
      enqueuedAt := ← Instant.reader.required depth enqueuedAt
      startedAt := ← Instant.reader.optional depth startedAt
      endedAt := ← Instant.reader.optional depth endedAt }
  | _ => none

end JobInfo

/-! ## Many jobs -/

/-- How many jobs there are, and how many of each status. -/
structure StatusSummary where
  /-- The project, if only its jobs are counted. -/
  project : Option String := none
  /-- The number of jobs. -/
  total : Nat
  /-- The number of jobs of each status that occurs. -/
  counts : JobStatus → Option Nat

namespace StatusSummary

/-- The summary of some jobs. -/
def ofJobs (project : Option String) (jobs : List JobInfo) : StatusSummary where
  project
  total := jobs.length
  counts s :=
    let n := jobs.countP (·.status = s)
    if n = 0 then none else some n

/-- The number of jobs of a status. -/
def count (s : StatusSummary) (status : JobStatus) : Nat :=
  (s.counts status).getD 0

/-- Writes a summary. -/
def toJson (s : StatusSummary) : Json :=
  .object (Json.member? "project_id" (s.project.map .string) ++
    [("total", .nat s.total),
      ("counts", .object (JobStatus.all.filterMap fun status =>
        (s.counts status).map fun n => (status.name, .nat n)))])

/-- Reads a summary. Of repeated counts of one status the last one holds. -/
def reader : Reader StatusSummary := fun depth n => do
  match ← Reader.fields [⟨"project_id", false⟩, ⟨"total", false⟩, ⟨"counts", false⟩] depth n with
  | (depth, [project, total, counts]) =>
    let counts ← (Reader.keyed JobStatus.ofName? Reader.unsigned).required depth counts
    return {
      project := ← Reader.string.optional depth project
      total := ← Reader.unsigned.required depth total
      counts := fun status => counts.reverse.lookup status }
  | _ => none

end StatusSummary

end ContainerJobs
