import ContainerJobs.Job.Label
import ContainerJobs.Sha256
import ContainerJobs.Text.Utf8

/-!
# Job keys

A job is known by a project and a trajectory. The container of a job has a name
that is computed from the key alone, so a job is found again without any record
of it: three legible segments and a digest of the exact key, which keeps keys
apart whose legible parts agree.
-/

namespace ContainerJobs

/-- What a job is known by. -/
structure JobKey where
  /-- The id of the project. -/
  project : String
  /-- The id of the trajectory within the project. -/
  trajectory : String
deriving DecidableEq, Repr

namespace JobKey

/-- The id shown to people. -/
def id (k : JobKey) : String :=
  k.project ++ ":" ++ k.trajectory

/-- The bytes that stand for a key: both ids with a zero byte between them. -/
def digestInput (k : JobKey) : List UInt8 :=
  Text.bytes k.project ++ 0 :: Text.bytes k.trajectory

/-- The number of hexadecimal digits of a digest. -/
def digestLength : Nat := 12

/-- The digest of a key: the first digits of its hash. -/
def digest (k : JobKey) : List Char :=
  (Sha256.hex (Sha256.digest k.digestInput)).take digestLength

/-- The name of the container of a job, under a stem that is common to all
    containers of a runner. -/
def resourceName (stem : String) (k : JobKey) : String :=
  String.ofList (Label.segment 24 stem ++ '-' :: Label.segment 40 k.project ++
    '-' :: Label.segment 40 k.trajectory ++ '-' :: k.digest)

/-- The labels of the container of a job. -/
def labels (k : JobKey) : List (String × String) :=
  [(Label.managed, "true"),
    (Label.project, Label.sanitize k.project),
    (Label.trajectory, Label.sanitize k.trajectory),
    (Label.rawProject, k.project),
    (Label.rawTrajectory, k.trajectory)]

/-- The labels as arguments of an engine command. -/
def labelArgs (k : JobKey) : List String :=
  k.labels.flatMap fun (key, value) => ["--label", key ++ "=" ++ value]

end JobKey

end ContainerJobs
