import ContainerJobs.Config
import ContainerJobs.Runner.Teardown

/-!
# Reaping

Old jobs are removed from outside a runner: those that ended longer ago than a
time to live, and those that wait or run longer than a timeout. A pass goes
through a listing in its order, removes each job that is due, and reports what
became of each of them. A pass works with any way to remove a job (`reap`).
-/

namespace ContainerJobs

/-- How old jobs may get, in seconds. -/
structure ReapPolicy where
  /-- How long the container of an ended job is kept. -/
  ttl : Nat
  /-- How long a job may wait or run. -/
  timeout : Nat
deriving DecidableEq, Repr

/-- The policy of a configuration. -/
def Config.reapPolicy (c : Config) : ReapPolicy :=
  { ttl := c.jobTtlSeconds, timeout := c.timeoutSeconds }

/-- Why a job is due. -/
inductive ReapReason where
  /-- It ended too long ago. -/
  | expired
  /-- It waits or runs for too long. -/
  | timedOut
deriving DecidableEq, Repr

/-- Why a job is due at the instant `now`, if it is. -/
def ReapPolicy.reason? (p : ReapPolicy) (now : Instant) (j : JobInfo) : Option ReapReason :=
  if j.status.isTerminal then
    j.endedAt.bind fun ended => if ended.isOlderThan now p.ttl then some .expired else none
  else if j.status.isActive then
    if (j.startedAt.getD j.enqueuedAt).isOlderThan now p.timeout then some .timedOut else none
  else none

/-- The ids of the jobs that a pass found due, in the order of the listing. -/
structure ReapReport where
  /-- Removed because they ended too long ago. -/
  expired : List String := []
  /-- Removed because they waited or ran for too long. -/
  timedOut : List String := []
  /-- Due, but not removed. -/
  failed : List String := []
deriving DecidableEq, Repr

namespace ReapReport

/-- No job was due. -/
def isEmpty (r : ReapReport) : Bool :=
  r.expired.isEmpty && r.timedOut.isEmpty && r.failed.isEmpty

/-- The report with a removed job in front. -/
def addRemoved (id : String) (r : ReapReport) : ReapReason → ReapReport
  | .expired => { r with expired := id :: r.expired }
  | .timedOut => { r with timedOut := id :: r.timedOut }

/-- The report with a job in front that was not removed. -/
def addFailed (id : String) (r : ReapReport) : ReapReport :=
  { r with failed := id :: r.failed }

end ReapReport

/-- A pass through a listing, where `cleanup` removes a job and says whether it is
    gone. A job that is not removed does not keep the others from it. -/
def reap {m : Type → Type} [Monad m] (cleanup : JobKey → m Bool) (p : ReapPolicy)
    (now : Instant) : List JobInfo → m ReapReport
  | [] => return {}
  | j :: r =>
    match p.reason? now j with
    | none => reap cleanup p now r
    | some reason => do
      let gone ← cleanup j.key
      let report ← reap cleanup p now r
      return if gone then report.addRemoved j.id reason else report.addFailed j.id

namespace Runner

/-- A pass through the jobs of a project, or through all. The listing is made at
    the instant `present`, and jobs are judged by the instant `now`. -/
def reap (r : Runner) (p : ReapPolicy) (present now : Instant) (project : Option String) :
    Dialogue ReapReport := do
  ContainerJobs.reap r.cleanup p now (← Dialogue.jobs present project)

/-- One pass after the other, whatever they report. -/
def reapRepeatedly (r : Runner) (p : ReapPolicy) (project : Option String) :
    (presents : List Instant) → Dialogue Unit
  | [] => return ()
  | present :: rest => do
    let _ ← r.reap p present present project
    r.reapRepeatedly p project rest

end Runner

/-- The number of passes, one every `interval`, that begin before `stop`, where
    the first one begins at once. -/
def passesBefore (interval stop : Nat) : Nat :=
  (stop + interval - 1) / interval

end ContainerJobs
