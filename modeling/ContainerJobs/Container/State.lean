import ContainerJobs.Job.Status
import ContainerJobs.Json.Basic
import ContainerJobs.Text.Split
import ContainerJobs.Time.Reading

/-!
# Container states

The state of a container as the engine reports it, and the job status that it
amounts to. The engine reports a state in two forms: as one line of fields with
commas between them, and as an object within the full inspection. Times are kept
as they are written; an engine writes the first instant of year one for a time
that has not come.
-/

namespace ContainerJobs

/-- What an engine reports about a container. -/
structure ContainerState where
  /-- The engine's word for the state. -/
  status : String
  /-- The main process runs. -/
  running : Bool
  /-- The exit code of the main process. -/
  exitCode : Int
  /-- When the container was started. -/
  startedAt : String
  /-- When the main process ended. -/
  finishedAt : String
deriving DecidableEq, Repr

/-! ## The times that engines write -/

namespace EngineTime

/-- The time that stands for none. -/
def zero : String := "0001-01-01T00:00:00Z"

/-- The time that stands for none, with nanoseconds. -/
def zeroNanos : String := "0001-01-01T00:00:00.000000000Z"

/-- The text stands for no time. -/
def isZero (s : String) : Bool :=
  let s := Text.trim s
  s == "" || s == zero || s == zeroNanos

/-- The instant that the engine means, if it means one. -/
def instant? (s : String) : Option Instant :=
  if isZero s then none else Instant.ofStrict? (Text.trimmed s.toList)

end EngineTime

/-! ## Reading a state -/

namespace ContainerState

/-- The template that makes an engine report a state as one line. -/
def lineFormat : String :=
  "\x7b\x7b.State.Status\x7d\x7d,\x7b\x7b.State.Running\x7d\x7d,\x7b\x7b.State.ExitCode\x7d\x7d,\x7b\x7b.State.StartedAt\x7d\x7d,\x7b\x7b.State.FinishedAt\x7d\x7d"

/-- The state of an inspection line: at least five fields, trimmed. An exit code
    that is no 64-bit integer counts as -1, so it is never a success. -/
def ofLine? (line : String) : Option ContainerState :=
  match (Text.split ',' (Text.trimmed line.toList)).map Text.trimmed with
  | status :: running :: code :: started :: finished :: _ =>
    some
      { status := String.ofList status
        running := running.map Char.toLower = ['t', 'r', 'u', 'e']
        exitCode := (Text.signed? code).getD (-1)
        startedAt := String.ofList started
        finishedAt := String.ofList finished }
  | _ => none

/-- The state of the state object of a full inspection. The status must be a
    string; whatever else is missing or of another type has a default, which for
    the exit code is -1. -/
def ofJson? (state : Json) : Option ContainerState := do
  let status ← (state.get? "Status").bind Json.string?
  return {
    status
    running := ((state.get? "Running").bind Json.bool?).getD false
    exitCode := ((state.get? "ExitCode").bind Json.signed?).getD (-1)
    startedAt := ((state.get? "StartedAt").bind Json.string?).getD ""
    finishedAt := ((state.get? "FinishedAt").bind Json.string?).getD "" }

/-- The job status that a state amounts to. A container that was started and has
    not finished runs, whatever else is reported. -/
def jobStatus (s : ContainerState) : JobStatus :=
  if !EngineTime.isZero s.startedAt && EngineTime.isZero s.finishedAt then .running
  else if s.running then .running
  else
    let status := Text.asciiLower s.status
    if status = "running" ∨ status = "restarting" ∨ status = "paused" then .running
    else if status = "created" then .pending
    else if status = "exited" then if s.exitCode = 0 then .completed else .failed
    else if status = "removing" then .stopped
    else .failed

end ContainerState

end ContainerJobs
