import ContainerJobs.Config
import ContainerJobs.Container.State
import ContainerJobs.Engine.Dialogue
import ContainerJobs.Job.Key
import ContainerJobs.Task.Instance

/-!
# Runners

A runner keeps one container per job, under a name that follows from the job's
key, so it needs no records of its own. This module holds what all operations of
a runner are made of: to find out whether a container is present, to remove it,
and to fetch its output.
-/

namespace ContainerJobs

/-- What a runner works with, besides the engine and the start lock. -/
structure Runner where
  /-- The configuration. -/
  config : Config
  /-- Where the tasks of trajectories come from. -/
  instances : InstanceSource
  /-- The variables of the host. -/
  host : Environment

/-- The name of a job's container. -/
def Runner.resourceName (r : Runner) (key : JobKey) : String :=
  key.resourceName r.config.nameStem

/-- What an inspection tells about a container. -/
inductive Presence where
  /-- There is no such container. -/
  | missing
  /-- The container is there, in this state. -/
  | found (state : ContainerState)
  /-- The container is there, but its state cannot be read. -/
  | unreadable
  /-- The engine could not tell. -/
  | unavailable
deriving DecidableEq, Repr

namespace Presence

/-- What the reply to an inspection tells. -/
def ofReply (r : Reply) : Presence :=
  if r.isNotFound then missing
  else if !r.isSuccess then unavailable
  else
    match ContainerState.ofLine? r.stdout with
    | some s => found s
    | none => unreadable

/-- What the answer to an inspection tells, where no answer tells nothing. -/
def ofAnswer : Answer → Presence
  | .ok r => ofReply r
  | .error _ => unavailable

/-- The state of a container that is there and can be read. -/
def state? : Presence → Option ContainerState
  | found s => some s
  | _ => none

end Presence

/-- The command that inspects the state of a container. -/
def Command.inspectState (name : String) : Command :=
  ["inspect", "--format", ContainerState.lineFormat, name]

/-- The reply, if there is one and the command succeeded. -/
def Answer.success? : Answer → Option Reply
  | .ok r => if r.isSuccess then some r else none
  | .error _ => none

namespace Dialogue

/-- Finds out whether a container is present. -/
def observe (name : String) : Dialogue Presence := do
  return Presence.ofAnswer (← command (.inspectState name))

/-- Stops a container and removes it. Says whether it is gone; one that is gone
    already counts as removed, and one that cannot be stopped is removed all the
    same. -/
def removeContainer (name : String) : Dialogue Bool := do
  match ← command ["stop", name] with
  | .error _ => return false
  | .ok r =>
    if r.isNotFound then return true
    match ← command ["rm", "-f", name] with
    | .error _ => return false
    | .ok r => return r.isSuccess || r.isNotFound

/-- The output of a container, unless there is nothing to read. -/
def containerLogs (name : String) : Dialogue (Option String) := do
  let reply? := (← command ["logs", name]).success?
  return (reply?.map Reply.combined).filter fun logs => !Text.isBlankText logs

end Dialogue

end ContainerJobs
