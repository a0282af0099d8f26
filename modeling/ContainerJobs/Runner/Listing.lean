import ContainerJobs.Container.Listing
import ContainerJobs.Job.Info
import ContainerJobs.Runner.Basic

/-!
# Listing jobs

The jobs of a runner are the containers that the engine lists as such. The
engine filters by label values, which several projects may share, so the rows are
filtered once more by the project ids as they were given. A container whose state
cannot be read is left out.
-/

namespace ContainerJobs

/-- The command that lists the containers of jobs, of one project or of all. -/
def Command.listJobs (project : Option String) : Command :=
  ["ps", "-a", "--filter", Label.managedFilter] ++
    (project.elim [] fun p => ["--filter", Label.projectFilter p]) ++
    ["--format", Listing.format]

/-- The command that lists the containers of a project for a bulk cancel. -/
def Command.listForCancel (project : String) : Command :=
  ["ps", "-a", "--filter", Label.managedFilter, "--filter", Label.projectFilter project,
    "--format", Listing.cancelFormat]

/-- The command that lists the running containers of jobs. -/
def Command.listRunning : Command :=
  ["ps", "-q", "--filter", Label.managedFilter]

/-- The job of a listed container in a state. The present stands in for a
    creation time that cannot be read, and for a missing end of a job that has
    ended. -/
def ListedContainer.job (c : ListedContainer) (present : Instant) (s : ContainerState) :
    JobInfo where
  id := c.key.id
  key := c.key
  status := s.jobStatus
  enqueuedAt := c.createdAt.getD present
  startedAt := EngineTime.instant? s.startedAt
  endedAt :=
    if s.jobStatus.isTerminal then some ((EngineTime.instant? s.finishedAt).getD present)
    else none

namespace Dialogue

/-- The containers of jobs, of one project or of all, or none where the engine
    does not list them. -/
def listedContainers (project : Option String) : Dialogue (List ListedContainer) := do
  match (← command (.listJobs project)).success? with
  | none => return []
  | some r => return Listing.containers r.stdout project

/-- The jobs of some listed containers, in the same order. -/
def jobsOf (present : Instant) : List ListedContainer → Dialogue (List JobInfo)
  | [] => return []
  | c :: r => do
    let presence ← observe c.name
    let jobs ← jobsOf present r
    return (presence.state?.map (c.job present)).toList ++ jobs

/-- The jobs, of one project or of all, in the order of the listing. -/
def jobs (present : Instant) (project : Option String) : Dialogue (List JobInfo) := do
  jobsOf present (← listedContainers project)

/-- How many jobs there are, and how many of each status. -/
def summary (present : Instant) (project : Option String) : Dialogue StatusSummary := do
  return StatusSummary.ofJobs project (← jobs present project)

end Dialogue

end ContainerJobs
