/-!
# Job status

The six states of a job. A job that is completed, failed or canceled has ended;
one that is pending or running is active; a stopped one is neither, since its
container is on its way out.
-/

namespace ContainerJobs

/-- The status of a job. -/
inductive JobStatus where
  /-- The container exists but has not run yet. -/
  | pending
  /-- The job runs. -/
  | running
  /-- The job ended without an error. -/
  | completed
  /-- The job ended with an error. -/
  | failed
  /-- The job was called off. -/
  | canceled
  /-- The container is being removed. -/
  | stopped
deriving DecidableEq, Repr

namespace JobStatus

/-- All of them, in the order in which they are counted and shown. -/
def all : List JobStatus :=
  [pending, running, completed, failed, canceled, stopped]

/-- The job has ended. -/
def isTerminal : JobStatus → Bool
  | completed | failed | canceled => true
  | _ => false

/-- The job waits or runs. -/
def isActive : JobStatus → Bool
  | pending | running => true
  | _ => false

/-- The name of a status. -/
def name : JobStatus → String
  | pending => "pending"
  | running => "running"
  | completed => "completed"
  | failed => "failed"
  | canceled => "canceled"
  | stopped => "stopped"

/-- The status with a name. -/
def ofName? (s : String) : Option JobStatus :=
  all.find? (·.name == s)

theorem mem_all (s : JobStatus) : s ∈ all := by cases s <;> decide

theorem ofName?_name (s : JobStatus) : ofName? s.name = some s := by cases s <;> decide

end JobStatus

end ContainerJobs
