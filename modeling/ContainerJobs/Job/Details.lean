import ContainerJobs.Job.Info

/-!
# Job reports

The report on one job: times, sections of readable data, and the full inspection
that they were taken from.
-/

namespace ContainerJobs

/-- A section of a report. It holds a table of data or a list of items. -/
structure Section where
  /-- The name that the section is looked up by. -/
  name : String
  /-- The heading. -/
  displayName : String
  /-- The table, if the section holds one. -/
  data : Option (List (String × Json)) := none
  /-- The items, if the section holds some. -/
  items : Option (List Json) := none

/-- A report on one job. -/
structure JobDetails where
  /-- The id shown to people. -/
  id : String
  /-- What the job is known by. -/
  key : JobKey
  /-- The status. -/
  status : JobStatus
  /-- When the job was created, if that is known. -/
  enqueuedAt : Option Instant := none
  /-- When it was started, if it was. -/
  startedAt : Option Instant := none
  /-- When it ended, if it has. -/
  endedAt : Option Instant := none
  /-- The sections in their order. -/
  sections : List Section
  /-- The inspection of the container. -/
  rawData : Json
  /-- What went wrong, if the job failed. -/
  error : Option String := none

namespace Section

/-- Writes a section. -/
def toJson (s : Section) : Json :=
  .object ([("name", .string s.name), ("display_name", .string s.displayName)] ++
    Json.member? "data" (s.data.map .object) ++ Json.member? "items" (s.items.map .array))

/-- Reads a section. -/
def reader : Reader Section := fun depth n => do
  match ← Reader.fields [⟨"name", false⟩, ⟨"display_name", false⟩, ⟨"data", false⟩,
      ⟨"items", false⟩] depth n with
  | (depth, [name, displayName, data, items]) =>
    return {
      name := ← Reader.string.required depth name
      displayName := ← Reader.string.required depth displayName
      data := ← Reader.object.optional depth data
      items := ← Reader.value.list.optional depth items }
  | _ => none

end Section

namespace JobDetails

/-- The first section with a name. -/
def section? (d : JobDetails) (name : String) : Option Section :=
  d.sections.find? (·.name == name)

/-- Writes a report. -/
def toJson (d : JobDetails) : Json :=
  .object ([("id", .string d.id), ("project_id", .string d.key.project),
      ("trajectory_id", .string d.key.trajectory), ("status", d.status.toJson)] ++
    Json.member? "enqueued_at" (d.enqueuedAt.map Instant.toJson) ++
    Json.member? "started_at" (d.startedAt.map Instant.toJson) ++
    Json.member? "ended_at" (d.endedAt.map Instant.toJson) ++
    [("sections", .array (d.sections.map Section.toJson)), ("raw_data", d.rawData)] ++
    Json.member? "error" (d.error.map .string))

/-- Reads a report. -/
def reader : Reader JobDetails := fun depth n => do
  match ← Reader.fields [⟨"id", false⟩, ⟨"project_id", false⟩, ⟨"trajectory_id", false⟩,
      ⟨"status", false⟩, ⟨"enqueued_at", false⟩, ⟨"started_at", false⟩, ⟨"ended_at", false⟩,
      ⟨"sections", false⟩, ⟨"raw_data", false⟩, ⟨"error", false⟩] depth n with
  | (depth, [id, project, trajectory, status, enqueuedAt, startedAt, endedAt, sections, rawData,
      error]) =>
    let project ← Reader.string.required depth project
    let trajectory ← Reader.string.required depth trajectory
    return {
      id := ← Reader.string.required depth id
      key := { project, trajectory }
      status := ← JobStatus.reader.required depth status
      enqueuedAt := ← Instant.reader.optional depth enqueuedAt
      startedAt := ← Instant.reader.optional depth startedAt
      endedAt := ← Instant.reader.optional depth endedAt
      sections := ← Section.reader.list.required depth sections
      rawData := ← Reader.value.required depth rawData
      error := ← Reader.string.optional depth error }
  | _ => none

end JobDetails

end ContainerJobs
