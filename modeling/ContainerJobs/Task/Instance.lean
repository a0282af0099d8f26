import ContainerJobs.Json.Record
import ContainerJobs.Text.Split

/-!
# Task instances

The task of a trajectory: the repository that it works on, the commit that it
starts from, and the image that it needs, if it needs a special one.
-/

namespace ContainerJobs

/-- The task of a trajectory. -/
structure TaskInstance where
  /-- The repository, as `owner/name`. -/
  repo : String
  /-- The commit to start from. -/
  baseCommit : Option String := none
  /-- The image that the task needs. -/
  image : Option String := none
deriving DecidableEq, Repr

/-- Why there is no instance for a trajectory. -/
inductive InstanceFault where
  /-- No instance is known under the trajectory id. -/
  | unknown
  /-- The trajectory id is no plain file name. -/
  | notPlainName
  /-- The file of the instance cannot be used. -/
  | file (path reason : String)
  /-- The instance names no repository. -/
  | emptyRepo
deriving DecidableEq, Repr

/-- The text of a fault. -/
def InstanceFault.message : InstanceFault → String
  | .unknown => "instance not found"
  | .notPlainName => "trajectory id is not a plain file name"
  | .file path reason => path ++ ": " ++ reason
  | .emptyRepo => "instance has an empty `repo`"

/-- Where the instances of trajectories come from. -/
abbrev InstanceSource := (trajectory : String) → Except InstanceFault TaskInstance

namespace TaskInstance

/-- The last part of the repository's path, by which its directory is named. -/
def repoName (i : TaskInstance) : String :=
  match Text.cutLast? '/' i.repo.toList with
  | some (_, name) => String.ofList name
  | none => i.repo

/-- Reads an instance. -/
def reader : Reader TaskInstance := fun depth n => do
  match ← Reader.fields [⟨"repo", false⟩, ⟨"base_commit", true⟩, ⟨"image", true⟩] depth n with
  | (depth, [repo, baseCommit, image]) =>
    return {
      repo := ← Reader.string.required depth repo
      baseCommit := ← Reader.string.optional depth baseCommit
      image := ← Reader.string.optional depth image }
  | _ => none

/-- Writes an instance. What is not given is `null`. -/
def toJson (i : TaskInstance) : Json :=
  .object [("repo", .string i.repo), ("base_commit", .optString i.baseCommit),
    ("image", .optString i.image)]

/-- The source that knows the instances of a list and no others. -/
def source (l : List (String × TaskInstance)) : InstanceSource := fun trajectory =>
  match l.lookup trajectory with
  | some i => .ok i
  | none => .error .unknown

end TaskInstance

end ContainerJobs
