import ContainerJobs.Runner.Listing

/-!
# Removing jobs

One job is removed by the name of its container, all jobs of a project by the
ids in a listing. A job that is gone already counts as removed.
-/

namespace ContainerJobs

namespace Dialogue

/-- Stops and removes all containers of a project by two commands. Whether the
    engine carries them out is not asked. -/
def cancelProject (project : String) : Dialogue Unit := do
  match (← command (.listForCancel project)).success? with
  | none => return ()
  | some r =>
    match Listing.cancelIds r.stdout project with
    | [] => return ()
    | ids =>
      let _ ← command ("stop" :: ids)
      let _ ← command ("rm" :: "-f" :: ids)

end Dialogue

namespace Runner

/-- Removes the container of a job. Says whether it is gone. -/
def cleanup (r : Runner) (key : JobKey) : Dialogue Bool := do
  let name := r.resourceName key
  match ← Dialogue.observe name with
  | .missing => return true
  | .unavailable => return false
  | .found _ | .unreadable => Dialogue.removeContainer name

/-- Calls off one job of a project, or all of them. -/
def cancel (r : Runner) (project : String) (trajectory : Option String) : Dialogue Unit :=
  match trajectory with
  | some trajectory => do let _ ← r.cleanup { project, trajectory }
  | none => Dialogue.cancelProject project

end Runner

end ContainerJobs
