import ContainerJobs.CommandLine.Invocation
import ContainerJobs.Json.Printer
import ContainerJobs.Reaper
import ContainerJobs.Runner.Inquiry
import ContainerJobs.Runner.Start

/-!
# Carrying out an invocation

What an action does to the jobs of a runner, and what it prints. An action that
fails has a message, which begins with the action's own view of the failure and
goes on with its causes.
-/

namespace ContainerJobs.CommandLine

/-- What an action prints. -/
structure Printout where
  /-- The output. -/
  stdout : String := ""
  /-- What went wrong and why, if the action failed. -/
  failure : Option (List String) := none
deriving DecidableEq, Repr

namespace Printout

/-- Some lines, and no failure. -/
def ofLines (l : List String) : Printout :=
  { stdout := String.join (l.map (· ++ "\n")) }

/-- A failure without an output. -/
def failed (reason : String) : Printout :=
  { failure := some [reason] }

/-- A failure that has a cause. -/
def failedBy (reason : String) (cause : JobError) : Printout :=
  { failure := some (reason :: cause.chain) }

/-- The text of a failure, if there is one. -/
def message? (p : Printout) : Option String :=
  p.failure.map (String.intercalate ": ")

end Printout

/-! ## Texts -/

/-- The mark of a status in lists. -/
def mark : JobStatus → String
  | .running => "▶"
  | .pending => "…"
  | .completed => "✓"
  | .failed => "✗"
  | .canceled | .stopped => "■"

/-- A line for an instant, if there is one. -/
def timeLine (heading : String) (t : Option Instant) : List String :=
  (t.map fun t => "      " ++ heading ++ t.rfc3339WithOffset).toList

/-- The lines for a job. -/
def jobLines (j : JobInfo) : List String :=
  ("  " ++ mark j.status ++ " " ++ j.id ++ " (" ++ j.status.name ++ ")") ::
    timeLine "Enqueued: " j.enqueuedAt ++ timeLine "Started:  " j.startedAt ++
    timeLine "Ended:    " j.endedAt

/-- The list of some jobs, the oldest first. -/
def jobList (jobs : List JobInfo) : Printout :=
  if jobs.isEmpty then .ofLines ["No jobs found"]
  else
    let sorted := jobs.mergeSort fun a b => a.enqueuedAt.le b.enqueuedAt
    .ofLines ("📋 Jobs:" :: "" :: sorted.flatMap jobLines)

/-- The text with blanks behind it up to a width. -/
def padRight (width : Nat) (s : String) : String :=
  s ++ String.ofList (List.replicate (width - s.length) ' ')

/-- The counts of a summary. -/
def countList (s : StatusSummary) : Printout :=
  .ofLines (("📊 Jobs: " ++ toString s.total) ::
    (JobStatus.all.filter fun status => s.count status ≠ 0).map fun status =>
      "   " ++ padRight 10 status.name ++ " " ++ toString (s.count status))

/-- The report on a pass of reaping. -/
def reapLines (r : ReapReport) : Printout :=
  .ofLines (("🧹 Reaped " ++ toString r.expired.length ++ " expired, " ++
      toString r.timedOut.length ++ " timed out (" ++ toString r.failed.length ++ " failed)") ::
    r.failed.map ("   ✗ " ++ ·))

/-! ## Actions -/

/-- The request to start a job. -/
def start (r : Runner) (key : JobKey) (function : String) (node : Option Nat)
    (image memory memorySwap : Option String) : Dialogue Printout := do
  match JobFunction.parse function with
  | .error b =>
    return .failedBy ("Invalid job function '" ++ function ++ "'") (.function b)
  | .ok f =>
    match ← r.start { key, function := f, node, image, memory, memorySwap } with
    | .error e => return .failedBy ("Failed to start job " ++ key.id) e
    | .ok true =>
      return .ofLines ["🚀 Started job " ++ key.id, "   Container: " ++ r.resourceName key]
    | .ok false =>
      return .ofLines ["⚠️  Job " ++ key.id ++
        " was not started (already active or rejected by the engine)"]

/-- The output of a job, or a line that there is none. -/
def showLogs (r : Runner) (key : JobKey) : Dialogue Printout := do
  match ← r.logs key with
  | some logs => return { stdout := logs }
  | none => return .ofLines ["No logs available for " ++ key.id]

/-- The report on a job as JSON. -/
def showDetails (r : Runner) (key : JobKey) : Dialogue Printout := do
  match ← r.details key with
  | some d => return .ofLines [d.toJson.pretty]
  | none => return .failed ("Job " ++ key.id ++ " not found")

/-- What the runner says about itself, as JSON. It is a failure if the engine does
    not answer. -/
def showInfo (r : Runner) : Dialogue Printout := do
  let info ← r.info
  let p := Printout.ofLines [info.toJson.pretty]
  match info.status with
  | .running => return p
  | .error => return { p with failure := some ["Container engine is unavailable"] }

/-- One pass of reaping. Only a single pass is reported on; the passes of an
    endless reaping are silent. -/
def reapOnce (r : Runner) (present : Instant) (project : Option String) (once : Bool) :
    Dialogue Printout := do
  let report ← r.reap r.config.reapPolicy present present project
  return if once then reapLines report else {}

/-- Carries out an action at the instant `present`. -/
def Action.perform (r : Runner) (present : Instant) : Action → Dialogue Printout
  | .start key function node image memory memorySwap =>
    CommandLine.start r key function node image memory memorySwap
  | .status key => do
    match ← r.status key with
    | some s => return .ofLines [s.name]
    | none => return .failed ("Job " ++ key.id ++ " not found")
  | .list project => do return jobList (← Dialogue.jobs present project)
  | .summary project => do return countList (← Dialogue.summary present project)
  | .cancel project trajectory => do
    r.cancel project trajectory
    match trajectory with
    | some trajectory =>
      return .ofLines ["✓ Canceled job " ++ JobKey.id { project, trajectory }]
    | none => return .ofLines ["✓ Canceled all jobs in project " ++ project]
  | .cleanup key => do
    if ← r.cleanup key then return .ofLines ["✓ Cleaned up job " ++ key.id]
    else return .failed ("Failed to clean up job " ++ key.id)
  | .logs key => showLogs r key
  | .details key => showDetails r key
  | .info => showInfo r
  | .reap project once interval =>
    if interval = 0 then return .failed "--interval-secs must be greater than zero"
    else reapOnce r present project once

end ContainerJobs.CommandLine
