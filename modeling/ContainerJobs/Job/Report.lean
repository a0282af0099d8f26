import ContainerJobs.Container.State
import ContainerJobs.Job.Details
import ContainerJobs.Launch.Credential

/-!
# Reporting on a job

`JobDetails.ofInspection` turns the full inspection of a container into the
report on its job. What an inspection lacks, or has of another type than
expected, is reported as empty. The environment section never shows the value of
a sensitive variable.
-/

namespace ContainerJobs

/-- What a report is made from. -/
structure Inspection where
  /-- The job. -/
  key : JobKey
  /-- The status that the container's state amounts to. -/
  status : JobStatus
  /-- The inspection of the container, one object. -/
  content : Json
  /-- The output of the job, if it is at hand. -/
  logs : Option String

namespace Report

/-- Stands for a value that is not shown. -/
def redacted : String := "********"

/-- The string under a key, or nothing. -/
def text (v : Json) (key : String) : String :=
  ((v.get? key).bind Json.string?).getD ""

/-- What stands under a key, or `null`. -/
def part (v : Json) (key : String) : Json :=
  (v.get? key).getD .null

/-- The members of an object; anything else has none. -/
def table (v : Json) : List (String × Json) :=
  v.members?.getD []

/-- One variable of the environment, as a report shows it. An entry without an
    equals sign is no variable. -/
def envEntry? (entry : String) : Option (String × Json) :=
  (Text.cut? '=' entry.toList).map fun (name, value) =>
    let name := String.ofList name
    (name, .string (if isSensitive name then redacted else String.ofList value))

/-- The variables of a container, by name; of repeated ones the last counts. -/
def environment (config : Json) : List (String × Json) :=
  let entries := ((config.get? "Env").bind Json.items?).getD []
  Assoc.ofPairs ((entries.filterMap Json.string?).filterMap envEntry?)

/-- A section that holds a table, in key order. -/
def tableSection (name displayName : String) (data : List (String × Json)) : Section :=
  { name, displayName, data := some (Assoc.ofPairs data) }

/-- What a report starts with. -/
def overview (content : Json) : Section :=
  let config := part content "Config"
  tableSection "overview" "Overview"
    [("container_id", .string (String.ofList ((text content "Id").toList.take 12))),
      ("image", .string (text config "Image")),
      ("command", (config.get? "Cmd").getD (.array [])),
      ("created_at", .string (text content "Created")),
      ("status", .string (text (part content "State") "Status")),
      ("platform", .string (text content "Platform")),
      ("driver", .string (text content "Driver"))]

/-- How the container is reached. -/
def networking (content : Json) : Section :=
  let network := part content "NetworkSettings"
  tableSection "networking" "Networking"
    [("ip_address", .string (text network "IPAddress")),
      ("gateway", .string (text network "Gateway")),
      ("ports", (network.get? "Ports").getD (.object [])),
      ("networks", (network.get? "Networks").getD (.object []))]

/-- The mounted trees, if there are any. -/
def mounts (content : Json) : List Section :=
  match (content.get? "Mounts").bind Json.items? with
  | none | some [] => []
  | some items => [{ name := "mounts", displayName := "Mounts", items := some items }]

/-- The output, if there is any. -/
def logs (logs : Option String) : List Section :=
  match logs with
  | none => []
  | some s => if s = "" then [] else [tableSection "logs" "Logs" [("logs", .string s)]]

/-- The exit code in a report. -/
def exitCode (state : Json) : Int :=
  ((state.get? "ExitCode").bind Json.signed?).getD 0

/-- What went wrong, in one line. -/
def errorText (state : Json) : String :=
  let cause := text state "Error"
  "Container exited with code " ++ String.ofList (Text.ofInt (exitCode state)) ++
    (if cause = "" then "" else ": " ++ cause)

/-- What went wrong, as a table. -/
def errorSection (state : Json) : Section :=
  tableSection "error" "Error"
    [("exit_code", .int (exitCode state)),
      ("error", .string (text state "Error")),
      ("oom_killed", .bool (((state.get? "OOMKilled").bind Json.bool?).getD false))]

end Report

/-- The report that an inspection gives. -/
def JobDetails.ofInspection (i : Inspection) : JobDetails :=
  let config := Report.part i.content "Config"
  let state := Report.part i.content "State"
  let failed := i.status == .failed
  { id := i.key.id
    key := i.key
    status := i.status
    enqueuedAt := EngineTime.instant? (Report.text i.content "Created")
    startedAt := EngineTime.instant? (Report.text state "StartedAt")
    endedAt := EngineTime.instant? (Report.text state "FinishedAt")
    sections :=
      [Report.overview i.content,
        { name := "state", displayName := "Container State", data := some (Report.table state) },
        { name := "environment", displayName := "Environment",
          data := some (Report.environment config) },
        { name := "labels", displayName := "Labels",
          data := some (Report.table (Report.part config "Labels")) },
        Report.networking i.content] ++
      Report.mounts i.content ++ Report.logs i.logs ++
      (if failed then [Report.errorSection state] else [])
    rawData := i.content
    error := if failed then some (Report.errorText state) else none }

end ContainerJobs
