import ContainerJobs.Job.Report
import ContainerJobs.Json.Parser
import ContainerJobs.Runner.Listing
import ContainerJobs.RunnerInfo

/-!
# Asking about jobs

What can be asked about one job, and about the runner as a whole. None of these
operations fails: where the engine does not tell, the answer is empty.
-/

namespace ContainerJobs

/-- The inspection of one container from the output of the full inspection, which
    is a list with one item, or that item. -/
def inspectedContainer? (stdout : String) : Option Json := do
  match ← Json.ofText? stdout with
  | .array items => items.head?
  | v => some v

namespace Runner

/-- The kind of runner in reports. -/
def kind : String := "docker"

/-- The status of a job, if its container is there and its state can be read. -/
def status (r : Runner) (key : JobKey) : Dialogue (Option JobStatus) := do
  return (← Dialogue.observe (r.resourceName key)).state?.map ContainerState.jobStatus

/-- The container of a job is there and its state can be read. -/
def hasJob (r : Runner) (key : JobKey) : Dialogue Bool := do
  return (← r.status key).isSome

/-- The output of a job, unless there is nothing to read. -/
def logs (r : Runner) (key : JobKey) : Dialogue (Option String) :=
  Dialogue.containerLogs (r.resourceName key)

/-- The report on a job, if its container can be inspected. The output is only
    fetched where the inspection can be read. -/
def details (r : Runner) (key : JobKey) : Dialogue (Option JobDetails) := do
  let name := r.resourceName key
  let reply? := (← Dialogue.command ["inspect", name]).success?
  let inspected? := reply?.bind fun reply => do
    let content ← inspectedContainer? reply.stdout
    let state ← ContainerState.ofJson? (← content.get? "State")
    return (content, state.jobStatus)
  match inspected? with
  | none => return none
  | some (content, status) =>
    let logs ← Dialogue.containerLogs name
    return some (JobDetails.ofInspection { key, status, content, logs })

/-- The command that asks an engine for its version. -/
def versionCommand : Command :=
  ["info", "--format", "\x7b\x7b.ServerVersion\x7d\x7d"]

/-- The number of lines that are not blank. -/
def countLines (stdout : String) : Nat :=
  (Text.lines stdout.toList).countP fun l => !l.all Text.isBlank

/-- What the runner says about itself. -/
def info (r : Runner) : Dialogue RunnerInfo := do
  match ← Dialogue.command versionCommand with
  | .error f => return .ofError kind f.message
  | .ok reply =>
    if !reply.isSuccess then return .ofError kind (Text.trim reply.combined)
    let running := ((← Dialogue.command .listRunning).success?).elim 0 fun reply =>
      countLines reply.stdout
    return .ofData kind
      [("managed_jobs", .nat running),
        ("network", .string r.config.networkName),
        ("platform", .string r.config.platform),
        ("server_version", .string (Text.trim reply.stdout))]

end Runner

end ContainerJobs
