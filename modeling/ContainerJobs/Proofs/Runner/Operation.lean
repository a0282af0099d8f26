import ContainerJobs.Proofs.Engine.InMemory
import ContainerJobs.Proofs.Launch.Arguments
import ContainerJobs.Reaper
import ContainerJobs.Runner.Inquiry

/-!
# All operations of a runner

The operations of a runner as one type (`Operation`), and the commands that they
may put to an engine, whatever it answers: no operation launches anything but a
container for a job, by the arguments that belong to it (`asks_operate`).
-/

namespace ContainerJobs

namespace Runner

/-- What a runner can be asked for. -/
inductive Operation where
  /-- To start a job. -/
  | start (q : StartRequest)
  /-- To call off one job of a project, or all of them. -/
  | cancel (project : String) (trajectory : Option String)
  /-- To remove the container of a job. -/
  | cleanup (key : JobKey)
  /-- For the jobs of a project, or for all. -/
  | jobs (present : Instant) (project : Option String)
  /-- For the number of jobs of each status. -/
  | summary (present : Instant) (project : Option String)
  /-- For the status of a job. -/
  | status (key : JobKey)
  /-- Whether there is a job. -/
  | hasJob (key : JobKey)
  /-- For the output of a job. -/
  | logs (key : JobKey)
  /-- For the report on a job. -/
  | details (key : JobKey)
  /-- About itself. -/
  | info
  /-- To remove the jobs that are due. -/
  | reap (p : ReapPolicy) (present now : Instant) (project : Option String)
  /-- To do so again and again. -/
  | reapRepeatedly (p : ReapPolicy) (project : Option String) (presents : List Instant)

variable (r : Runner)

/-- Carries out an operation, whatever comes of it. -/
def operate : Operation → Dialogue Unit
  | .start q => do let _ ← r.start q
  | .cancel project trajectory => r.cancel project trajectory
  | .cleanup key => do let _ ← r.cleanup key
  | .jobs present project => do let _ ← Dialogue.jobs present project
  | .summary present project => do let _ ← Dialogue.summary present project
  | .status key => do let _ ← r.status key
  | .hasJob key => do let _ ← r.hasJob key
  | .logs key => do let _ ← r.logs key
  | .details key => do let _ ← r.details key
  | .info => do let _ ← r.info
  | .reap p present now project => do let _ ← r.reap p present now project
  | .reapRepeatedly p project presents => r.reapRepeatedly p project presents

/-- A launch is one of a job by this runner. -/
def MayAsk (c : Command) : Prop :=
  c.head? = some "run" → ∃ q task, c = "run" :: r.launchArgs q task

variable {r}

theorem mayAsk_cons {a : String} {rest : Command} (h : a ≠ "run") : r.MayAsk (a :: rest) :=
  fun run => absurd (Option.some.inj run) h

end Runner

/-! ## What operations ask -/

namespace Dialogue

variable {r : Runner} (name : String) (present : Instant) (project : Option String)

theorem asks_observe : (observe name).Asks r.MayAsk :=
  .command_bind (Runner.mayAsk_cons (by decide)) fun _ => trivial

theorem asks_removeContainer : (removeContainer name).Asks r.MayAsk :=
  asks_removeContainer_of (Runner.mayAsk_cons (by decide)) (Runner.mayAsk_cons (by decide))

theorem asks_containerLogs : (containerLogs name).Asks r.MayAsk :=
  .command_bind (Runner.mayAsk_cons (by decide)) fun _ => trivial

theorem asks_cancelProject (project : String) : (cancelProject project).Asks r.MayAsk := by
  refine .command_bind (Runner.mayAsk_cons (by decide)) fun a => ?_
  cases a.success? with
  | none => trivial
  | some reply =>
    simp only
    split
    · trivial
    · exact .command_bind (Runner.mayAsk_cons (by decide)) fun _ =>
        .command_bind (Runner.mayAsk_cons (by decide)) fun _ => trivial

theorem asks_jobsOf (l : List ListedContainer) : (jobsOf present l).Asks r.MayAsk := by
  induction l with
  | nil => trivial
  | cons c l ih => exact (asks_observe c.name).bind fun _ => ih.bind fun _ => trivial

theorem asks_jobs : (jobs present project).Asks r.MayAsk := by
  have listed : (listedContainers project).Asks r.MayAsk := by
    refine .command_bind (Runner.mayAsk_cons (by decide)) fun a => ?_
    cases a.success? <;> trivial
  exact listed.bind fun l => asks_jobsOf present l

theorem asks_summary : (summary present project).Asks r.MayAsk :=
  (asks_jobs present project).bind fun _ => trivial

end Dialogue

namespace Runner

variable (r : Runner) (key : JobKey)

theorem asks_cleanup : (r.cleanup key).Asks r.MayAsk := by
  refine (Dialogue.asks_observe (r.resourceName key)).bind fun presence => ?_
  cases presence with
  | missing => trivial
  | unavailable => trivial
  | found state => exact Dialogue.asks_removeContainer _
  | unreadable => exact Dialogue.asks_removeContainer _

theorem asks_cancel (project : String) (trajectory : Option String) :
    (r.cancel project trajectory).Asks r.MayAsk := by
  cases trajectory with
  | none => exact Dialogue.asks_cancelProject project
  | some trajectory => exact (r.asks_cleanup _).bind fun _ => trivial

theorem asks_launch (q : StartRequest) : (r.launch q).Asks r.MayAsk := by
  rw [launch]
  cases hp : r.plan q with
  | error err => trivial
  | ok p =>
    obtain ⟨task, -, -, args⟩ := plan_eq_ok hp
    refine .command_bind (fun _ => ⟨q, task, args⟩) fun a => ?_
    cases a <;> trivial

theorem asks_startUnlocked (q : StartRequest) : (r.startUnlocked q).Asks r.MayAsk := by
  refine .command_bind (mayAsk_cons (by decide)) fun a => ?_
  cases a with
  | error f => trivial
  | ok reply =>
    simp only
    cases (Presence.ofReply reply).hindrance with
    | nothing => exact r.asks_launch q
    | lasting => trivial
    | removable =>
      refine (Dialogue.asks_removeContainer _).bind fun gone => ?_
      cases gone with
      | false => trivial
      | true => exact r.asks_launch q

theorem asks_start (q : StartRequest) : (r.start q).Asks r.MayAsk := by
  intro guard?
  cases guard? with
  | none => trivial
  | some guard => exact (r.asks_startUnlocked q).bind fun _ => trivial

theorem asks_status : (r.status key).Asks r.MayAsk :=
  asks_status_of (mayAsk_cons (by decide))

theorem asks_hasJob : (r.hasJob key).Asks r.MayAsk :=
  (r.asks_status key).bind fun _ => trivial

theorem asks_details : (r.details key).Asks r.MayAsk :=
  asks_details_of (mayAsk_cons (by decide)) (mayAsk_cons (by decide))

theorem asks_info : r.info.Asks r.MayAsk := by
  refine .command_bind (mayAsk_cons (by decide)) fun a => ?_
  cases a with
  | error f => trivial
  | ok reply =>
    simp only
    split
    · trivial
    · exact .command_bind (mayAsk_cons (by decide)) fun _ => trivial

theorem asks_reap (p : ReapPolicy) (present now : Instant) (project : Option String) :
    (r.reap p present now project).Asks r.MayAsk := by
  have pass (l : List JobInfo) : (ContainerJobs.reap r.cleanup p now l).Asks r.MayAsk := by
    induction l with
    | nil => trivial
    | cons j l ih =>
      rw [ContainerJobs.reap]
      split
      · exact ih
      · exact (r.asks_cleanup j.key).bind fun _ => ih.bind fun _ => trivial
  exact (Dialogue.asks_jobs present project).bind pass

theorem asks_reapRepeatedly (p : ReapPolicy) (project : Option String)
    (presents : List Instant) : (r.reapRepeatedly p project presents).Asks r.MayAsk := by
  induction presents with
  | nil => trivial
  | cons present presents ih => exact (r.asks_reap p present present project).bind fun _ => ih

/-- Whatever a runner is asked for, and whatever the engine answers, it launches
    nothing but containers for jobs. -/
theorem asks_operate (o : Operation) : (r.operate o).Asks r.MayAsk := by
  cases o with
  | start q => exact (r.asks_start q).bind fun _ => trivial
  | cancel project trajectory => exact r.asks_cancel project trajectory
  | cleanup key => exact (r.asks_cleanup key).bind fun _ => trivial
  | jobs present project => exact (Dialogue.asks_jobs present project).bind fun _ => trivial
  | summary present project =>
    exact (Dialogue.asks_summary present project).bind fun _ => trivial
  | status key => exact (r.asks_status key).bind fun _ => trivial
  | hasJob key => exact (r.asks_hasJob key).bind fun _ => trivial
  | logs key => exact (Dialogue.asks_containerLogs _).bind fun _ => trivial
  | details key => exact (r.asks_details key).bind fun _ => trivial
  | info => exact r.asks_info.bind fun _ => trivial
  | reap p present now project => exact (r.asks_reap p present now project).bind fun _ => trivial
  | reapRepeatedly p project presents => exact r.asks_reapRepeatedly p project presents

end Runner

end ContainerJobs
