import ContainerJobs.JobError
import ContainerJobs.Launch.Plan
import ContainerJobs.Runner.Basic

/-!
# Starting jobs

A job is started unless it is there already: a container that has ended, or was
made and never ran, or is in a state that cannot be read, is replaced by a new
one; one that runs or is on its way out stays, and nothing is started. All of it
happens under the start lock for the container's name.
-/

namespace ContainerJobs

/-- What is asked for when a job is started. -/
structure StartRequest where
  /-- The job. -/
  key : JobKey
  /-- The function to call. -/
  function : JobFunction
  /-- The node to resume from. -/
  node : Option Nat := none
  /-- The image, if not the one that follows from configuration and task. -/
  image : Option String := none
  /-- The memory limit, if not the configured one. -/
  memory : Option String := none
  /-- The limit of memory and swap, if not the configured one. -/
  memorySwap : Option String := none
  /-- The trace context to continue, in the order of the keys. -/
  trace : List (String × String) := []
deriving DecidableEq, Repr

/-- What stands in the way of a new container. -/
inductive Hindrance where
  /-- Nothing does. -/
  | nothing
  /-- An old container has to be removed first. -/
  | removable
  /-- A container has to stay, or it is not known whether there is one. -/
  | lasting
deriving DecidableEq, Repr

/-- What a container of a job's name means for a start of the job. -/
def Presence.hindrance : Presence → Hindrance
  | .missing => .nothing
  | .unreadable => .removable
  | .unavailable => .lasting
  | .found s =>
    match s.jobStatus with
    | .completed | .failed | .canceled | .pending => .removable
    | .running | .stopped => .lasting

namespace Runner

/-- The plan for a request: the function is checked before the task is looked
    up. -/
def plan (r : Runner) (q : StartRequest) : Except JobError LaunchPlan := do
  let _ ← q.function.validate.mapError .function
  let task ← (r.instances q.key.trajectory).mapError (.noInstance q.key.trajectory)
  (LaunchPlan.build r.config {
    resourceName := r.resourceName q.key
    key := q.key
    function := q.function
    node := q.node
    image := resolveImage q.image r.config task q.key.trajectory
    task
    memory := q.memory
    memorySwap := q.memorySwap
    trace := q.trace
    host := r.host }).mapError .function

/-- Launches a container for a request. Says whether the engine took it. -/
def launch (r : Runner) (q : StartRequest) : Dialogue (Except JobError Bool) :=
  match r.plan q with
  | .error e => return .error e
  | .ok p => do
    match ← Dialogue.command p.args with
    | .error f => return .error (.engine f)
    | .ok reply => return .ok reply.isSuccess

/-- Starts a job, without regard to the start lock. -/
def startUnlocked (r : Runner) (q : StartRequest) : Dialogue (Except JobError Bool) := do
  let name := r.resourceName q.key
  match ← Dialogue.command (.inspectState name) with
  | .error f => return .error (.engine f)
  | .ok reply =>
    match (Presence.ofReply reply).hindrance with
    | .nothing => r.launch q
    | .lasting => return .ok false
    | .removable => do
      if ← Dialogue.removeContainer name then r.launch q else return .ok false

/-- Starts a job. Says whether a new container was launched. While another start
    holds the name, nothing is done. -/
def start (r : Runner) (q : StartRequest) : Dialogue (Except JobError Bool) :=
  .acquire (r.resourceName q.key) fun
    | none => return .ok false
    | some guard => do
      let result ← r.startUnlocked q
      .release guard (return result)

end Runner

end ContainerJobs
