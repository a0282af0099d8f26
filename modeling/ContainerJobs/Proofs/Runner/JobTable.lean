import ContainerJobs.Engine.InMemory
import ContainerJobs.Runner.Inquiry
import ContainerJobs.Runner.Start
import ContainerJobs.Runner.Teardown

/-!
# Runners as tables of jobs

What users of a runner rely on, without names, labels, ids or commands: a runner
keeps a table of jobs and their states, in the order of their starts. The
operations of a runner, and changes of state from outside, are *actions*, which
are performed on a table (`JobTable.perform`) or by a runner on an engine in
memory (`Runner.perform`).
-/

namespace ContainerJobs

/-- What is asked of a runner, or done to its engine from outside. -/
inductive JobAction where
  /-- Starts a job. -/
  | start (q : StartRequest)
  /-- Calls off one job. -/
  | cancel (key : JobKey)
  /-- Calls off all jobs of a project. -/
  | cancelProject (project : String)
  /-- Removes a job. -/
  | cleanup (key : JobKey)
  /-- Asks for the status of a job. -/
  | status (key : JobKey)
  /-- Asks for the jobs of a project, or for all, at an instant. -/
  | jobs (present : Instant) (project : Option String)
  /-- Puts the container of a job into a state. -/
  | setState (key : JobKey) (state : ContainerState)

/-- What comes of an action. -/
inductive JobAnswer where
  /-- The job was started, or not. -/
  | start (result : Except JobError Bool)
  /-- There is nothing to say. -/
  | silent
  /-- The job is gone, or not. -/
  | cleanup (gone : Bool)
  /-- The status of the job, if there is one. -/
  | status (status : Option JobStatus)
  /-- The jobs. -/
  | jobs (jobs : List JobInfo)
  /-- The container was there, or not. -/
  | setState (there : Bool)

/-- The job that an action is about, if it is about one. -/
def JobAction.key? : JobAction → Option JobKey
  | start q => some q.key
  | cancel key | cleanup key | status key | setState key _ => some key
  | cancelProject _ | jobs _ _ => none

/-- The action is a start. -/
def JobAction.isStart : JobAction → Bool
  | start _ => true
  | _ => false

/-! ## Tables -/

/-- Jobs and their states, in the order of the starts. -/
abbrev JobTable := List (JobKey × ContainerState)

namespace JobTable

/-- The table without a job. -/
def remove (t : JobTable) (key : JobKey) : JobTable :=
  t.filter fun e => e.1 ≠ key

/-- The table with a job that was just started. -/
def add (t : JobTable) (key : JobKey) : JobTable :=
  t ++ [(key, .started)]

/-- The table with another state of a job, if the job is there. -/
def setState (t : JobTable) (key : JobKey) (state : ContainerState) : JobTable :=
  t.map fun e => if e.1 = key then (key, state) else e

/-- A job in this state gives way to a new start. -/
def givesWay (s : ContainerState) : Bool :=
  s.jobStatus = .completed || s.jobStatus = .failed || s.jobStatus = .pending

/-- When the containers of an engine in memory are created. -/
def creation : Instant := { second := 1714557598, nano := 0 }

/-- What a listing tells of a job. -/
def job (present : Instant) (e : JobKey × ContainerState) : JobInfo where
  id := e.1.id
  key := e.1
  status := e.2.jobStatus
  enqueuedAt := creation
  startedAt := EngineTime.instant? e.2.startedAt
  endedAt :=
    if e.2.jobStatus.isTerminal then some ((EngineTime.instant? e.2.finishedAt).getD present)
    else none

/-- What an action answers, and what it makes of a table. -/
def perform (t : JobTable) : JobAction → JobAnswer × JobTable
  | .start q =>
    if (t.lookup q.key).all givesWay then (.start (.ok true), (t.remove q.key).add q.key)
    else (.start (.ok false), t)
  | .cancel key => (.silent, t.remove key)
  | .cancelProject project => (.silent, t.filter fun e => e.1.project ≠ project)
  | .cleanup key => (.cleanup true, t.remove key)
  | .status key => (.status ((t.lookup key).map (·.jobStatus)), t)
  | .jobs present project =>
    (.jobs ((t.filter fun e => project.all (e.1.project == ·)).map (job present)), t)
  | .setState key state => (.setState (t.lookup key).isSome, t.setState key state)

/-- The answers to actions, one after the other, and the table at the end. -/
def performAll (t : JobTable) : List JobAction → List JobAnswer × JobTable
  | [] => ([], t)
  | a :: actions =>
    let rest := performAll (t.perform a).2 actions
    ((t.perform a).1 :: rest.1, rest.2)

end JobTable

/-! ## Engines in memory -/

namespace Runner

/-- What an action answers, and what it makes of an engine in memory, without a
    start lock. -/
def perform (r : Runner) (e : InMemory) : JobAction → JobAnswer × InMemory
  | .start q =>
    let run := (r.start q).run InMemory.engine e .always
    (.start run.value, run.engine)
  | .cancel key =>
    (.silent, ((r.cancel key.project (some key.trajectory)).run InMemory.engine e .always).engine)
  | .cancelProject project =>
    (.silent, ((r.cancel project none).run InMemory.engine e .always).engine)
  | .cleanup key =>
    let run := (r.cleanup key).run InMemory.engine e .always
    (.cleanup run.value, run.engine)
  | .status key =>
    let run := (r.status key).run InMemory.engine e .always
    (.status run.value, run.engine)
  | .jobs present project =>
    let run := (Dialogue.jobs present project).run InMemory.engine e .always
    (.jobs run.value, run.engine)
  | .setState key state =>
    let changed := e.modify? (r.resourceName key) fun c => { c with state }
    (.setState changed.isSome, changed.getD e)

/-- The answers to actions, one after the other, and the engine at the end. -/
def performAll (r : Runner) (e : InMemory) : List JobAction → List JobAnswer × InMemory
  | [] => ([], e)
  | a :: actions =>
    let rest := performAll r (r.perform e a).2 actions
    ((r.perform e a).1 :: rest.1, rest.2)

end Runner

end ContainerJobs
