import ContainerJobs.Json.Record

/-!
# Runner health

Whether the engine of a runner answers, and what it says about itself.
-/

namespace ContainerJobs

/-- The health of a runner. -/
inductive RunnerStatus where
  /-- The engine answers. -/
  | running
  /-- The engine does not. -/
  | error
deriving DecidableEq, Repr

namespace RunnerStatus

/-- The name of a status. -/
def name : RunnerStatus → String
  | running => "running"
  | error => "error"

/-- The status with a name. -/
def ofName? (s : String) : Option RunnerStatus :=
  [running, error].find? (·.name == s)

end RunnerStatus

/-- What a runner says about itself. -/
structure RunnerInfo where
  /-- The kind of runner. -/
  runnerType : String
  /-- Its health. -/
  status : RunnerStatus
  /-- Further data, in the order of the keys. -/
  data : List (String × Json)

namespace RunnerInfo

/-- A runner whose engine answers. -/
def ofData (runnerType : String) (data : List (String × Json)) : RunnerInfo :=
  { runnerType, status := .running, data }

/-- A runner whose engine does not answer, with the reason. -/
def ofError (runnerType message : String) : RunnerInfo :=
  { runnerType, status := .error, data := [("error", .string message)] }

/-- Writes the information. -/
def toJson (i : RunnerInfo) : Json :=
  .object [("runner_type", .string i.runnerType), ("status", .string i.status.name),
    ("data", .object i.data)]

/-- Reads the information. Data that are missing count as empty. -/
def reader : Reader RunnerInfo := fun depth n => do
  match ← Reader.fields [⟨"runner_type", false⟩, ⟨"status", false⟩, ⟨"data", true⟩] depth n with
  | (depth, [runnerType, status, data]) =>
    return {
      runnerType := ← Reader.string.required depth runnerType
      status := ← (Reader.name RunnerStatus.ofName?).required depth status
      data := ← Reader.object.withDefault [] depth data }
  | _ => none

end RunnerInfo

end ContainerJobs
