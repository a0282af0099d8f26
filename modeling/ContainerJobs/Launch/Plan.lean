import ContainerJobs.Engine.Basic
import ContainerJobs.Job.Descriptor
import ContainerJobs.Launch.Credential
import ContainerJobs.Launch.Entrypoint
import ContainerJobs.Launch.LocalUrl

/-!
# Launch plans

All that is decided before a container is launched: image, memory limits,
environment, entrypoint, and the engine command that launches it. A plan is made
from the configuration, the task and a snapshot of the host's variables; the
engine has no part in it.
-/

namespace ContainerJobs

/-- What a plan is made for, besides the configuration. -/
structure LaunchInput where
  /-- The name of the container. -/
  resourceName : String
  /-- The job. -/
  key : JobKey
  /-- The function that the job calls. -/
  function : JobFunction
  /-- The node that the job resumes from, if it resumes. -/
  node : Option Nat
  /-- The image. -/
  image : String
  /-- The task. -/
  task : TaskInstance
  /-- The memory limit of this job. -/
  memory : Option String
  /-- The limit of memory and swap of this job. -/
  memorySwap : Option String
  /-- The trace context that the job continues, in the order of the keys. -/
  trace : List (String × String)
  /-- The variables of the host. -/
  host : Environment

/-- A decided launch. -/
structure LaunchPlan where
  /-- The name of the container. -/
  resourceName : String
  /-- The image. -/
  image : String
  /-- The variables of the container in their order. -/
  env : List (String × String)
  /-- The shell command of the container. -/
  entrypoint : String
  /-- The engine command. -/
  args : Command
deriving DecidableEq, Repr

/-- The image of a job: the one asked for, unless it is blank, else the one of
    the runner, else the one of the task, else one named after the trajectory. -/
def resolveImage (explicit : Option String) (c : Config) (task : TaskInstance)
    (trajectory : String) : String :=
  ((explicit.filter fun s => !Text.isBlankText s) <|> c.defaultImage <|> task.image).getD
    (String.ofList (Text.dropEndWhile (· == '/') c.imagePrefix.toList) ++ "/" ++
      Text.asciiLower trajectory)

/-- The memory limit, and the limit of memory and swap. A value of the job goes
    before one of the runner. With a limit of memory alone the job gets no
    swap. -/
def memoryLimits (memory memorySwap : Option String) (c : Config) :
    Option String × Option String :=
  let memory := memory <|> c.memoryLimit
  (memory, memorySwap <|> c.memorySwapLimit <|> memory)

namespace LaunchInput

/-- The descriptor that the job gets. -/
def descriptor (i : LaunchInput) : JobDescriptor :=
  .ofFunction i.function i.key i.node

/-- The variables that every job gets. -/
def fixedEnv (i : LaunchInput) : List (String × String) :=
  [("PROJECT_ID", i.key.project),
    ("TRAJECTORY_ID", i.key.trajectory),
    ("JOB_FUNC", i.function.qualifiedName),
    ("JOB_DESCRIPTOR", i.descriptor.encode),
    ("DATA_DIR", Layout.data),
    ("SOURCE_DIR", Layout.source),
    ("NLTK_DATA", Layout.nltkData),
    ("INDEX_STORE_DIR", Layout.source ++ "/index_store/" ++ i.key.trajectory),
    ("REPO_DIR", i.task.repoDir),
    ("REPO_PATH", i.task.repoDir),
    ("INSTANCE_PATH", Layout.source ++ "/instances/" ++ i.key.trajectory ++ ".json"),
    ("SKIP_CONDA_ACTIVATE", "true"),
    ("VIRTUAL_ENV", ""),
    ("UV_NO_VENV", "1")]

/-- The variables that the mounted trees ask for. -/
def mountEnv (c : Config) : List (String × String) :=
  (if c.componentsDir.isSome then [("COMPONENTS_PATH", Layout.components)] else []) ++
    (if c.sourceDir.isSome then [("PYTHONPATH", Layout.source)] else [])

/-- The address of the host's store, as the container sees it. -/
def storeEnv (i : LaunchInput) : List (String × String) :=
  ((i.host.get? "REDIS_URL").map fun url => ("REDIS_URL", containerUrl url)).toList

/-- The credentials of the host, as far as no variable of that name is set. -/
def credentialEnv (i : LaunchInput) (set : List (String × String)) : List (String × String) :=
  i.host.entries.filter fun (name, _) =>
    isForwardedCredential name && !set.any (·.1 == name)

/-- The trace context as variables. -/
def traceEnv (i : LaunchInput) : List (String × String) :=
  i.trace.map fun (key, value) => ("OTEL_" ++ key, value)

/-- All variables of the container. -/
def env (i : LaunchInput) (c : Config) : List (String × String) :=
  let set := i.fixedEnv ++ mountEnv c ++ i.storeEnv
  set ++ i.credentialEnv set ++ i.traceEnv

end LaunchInput

namespace LaunchPlan

/-- The arguments for one option that may be missing. -/
def option (name : String) (value : Option String) : List String :=
  value.elim [] fun v => [name, v]

/-- The arguments that mount a tree of the host. -/
def mount (host : Option String) (container : String) : List String :=
  option "-v" (host.map fun h => h ++ ":" ++ container)

/-- The arguments before the image: everything but what the container runs. -/
def options (c : Config) (i : LaunchInput) : List String :=
  let (memory, memorySwap) := memoryLimits i.memory i.memorySwap c
  ["--name", i.resourceName, "-d", "--network", c.networkName] ++
    (c.platformOverride?.map fun p => "--platform=" ++ p).toList ++
    option "--memory" memory ++
    option "--memory-swap" memorySwap ++
    i.key.labelArgs ++
    ((i.env c).flatMap fun (name, value) => ["-e", name ++ "=" ++ value]) ++
    ["--add-host", hostAlias ++ ":" ++ c.hostGateway] ++
    mount c.dataDir Layout.data ++
    mount c.componentsDir Layout.components ++
    mount c.sourceDir Layout.source

/-- The plan for a job, if its function is valid. -/
def build (c : Config) (i : LaunchInput) : Except BadReference LaunchPlan := do
  let _ ← i.function.validate
  let command := ContainerJobs.entrypoint c i.task
  return {
    resourceName := i.resourceName
    image := i.image
    env := i.env c
    entrypoint := command
    args := "run" :: options c i ++ [i.image, "sh", "-c", command] }

/-- The value of the first variable with a name. -/
def envValue? (p : LaunchPlan) (name : String) : Option String :=
  p.env.lookup name

end LaunchPlan

end ContainerJobs
