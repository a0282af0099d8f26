import ContainerJobs.Engine.Basic
import ContainerJobs.Job.Descriptor
import ContainerJobs.Task.Instance

/-!
# Why a job cannot be started

Starting a job is the only operation that fails with an error. All others give
an empty or negative answer where the engine does not cooperate.
-/

namespace ContainerJobs

/-- Why an operation on a job failed. -/
inductive JobError where
  /-- A descriptor cannot be read. -/
  | descriptor (f : DescriptorFault)
  /-- The function reference names no function. -/
  | function (b : BadReference)
  /-- There is no instance for the trajectory. -/
  | noInstance (trajectory : String) (f : InstanceFault)
  /-- The engine cannot be reached. -/
  | engine (f : SpawnFailure)
deriving DecidableEq, Repr

/-- The text of an error. -/
def JobError.message : JobError → String
  | .descriptor (.encoding f) =>
    "provisioning failed: invalid descriptor encoding: " ++ f.message
  | .descriptor .content => "serialization failed: not a job descriptor"
  | .function b =>
    "invalid job function reference `" ++ b.reference ++ "`: " ++ b.fault.message
  | .noInstance trajectory f =>
    "instance metadata unavailable for `" ++ trajectory ++ "`: " ++ f.message
  | .engine f => f.message

/-- The text of an error followed by the texts of its causes. -/
def JobError.chain (e : JobError) : List String :=
  match e with
  | .engine f => [e.message, f.cause.message]
  | _ => [e.message]

end ContainerJobs
