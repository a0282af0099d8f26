import ContainerJobs.Environment
import ContainerJobs.Text.Decimal

/-!
# Configuration

The configuration of a runner is resolved from explicit settings, from the
environment, and from defaults, in this order. A number or a flag that cannot be
read counts as unset; a text is taken as it stands, blanks included.
-/

namespace ContainerJobs

/-- What is set explicitly. -/
structure Settings where
  /-- How long the container of an ended job is kept. -/
  jobTtlSeconds : Option Nat := none
  /-- How long a job may wait or run. -/
  timeoutSeconds : Option Nat := none
  /-- The source tree on the host. -/
  sourceDir : Option String := none
  /-- The image of jobs that name none. -/
  defaultImage : Option String := none
  /-- Where derived image names start. -/
  imagePrefix : Option String := none
  /-- Jobs update themselves before they start. -/
  updateOnStart : Option Bool := none
  /-- The branch that jobs update to. -/
  updateBranch : Option String := none
  /-- The network of the containers. -/
  networkName : Option String := none
  /-- The memory limit of jobs that name none. -/
  memoryLimit : Option String := none
  /-- The limit of memory and swap of jobs that name none. -/
  memorySwapLimit : Option String := none
  /-- The architecture of the images. -/
  architecture : Option String := none
  /-- The architecture of the host. -/
  hostArchitecture : Option String := none
  /-- The components tree on the host. -/
  componentsDir : Option String := none
  /-- The data tree on the host. -/
  dataDir : Option String := none
  /-- The program that reaches the engine. -/
  engineBinary : Option String := none
  /-- The address of the host as containers see it. -/
  hostGateway : Option String := none
  /-- The stem of container names. -/
  nameStem : Option String := none
  /-- The module that dispatches jobs in a container. -/
  dispatchModule : Option String := none

/-- A resolved configuration. The fields are those of `Settings`. -/
structure Config where
  /-- How long the container of an ended job is kept. -/
  jobTtlSeconds : Nat
  /-- How long a job may wait or run. -/
  timeoutSeconds : Nat
  /-- The source tree on the host, if it is to be mounted. -/
  sourceDir : Option String
  /-- The image of jobs that name none. -/
  defaultImage : Option String
  /-- Where derived image names start. -/
  imagePrefix : String
  /-- Jobs update themselves before they start. -/
  updateOnStart : Bool
  /-- The branch that jobs update to. -/
  updateBranch : String
  /-- The network of the containers. -/
  networkName : String
  /-- The memory limit of jobs that name none. -/
  memoryLimit : Option String
  /-- The limit of memory and swap of jobs that name none. -/
  memorySwapLimit : Option String
  /-- The architecture of the images. -/
  architecture : String
  /-- The architecture of the host. -/
  hostArchitecture : String
  /-- The components tree on the host, if it is to be mounted. -/
  componentsDir : Option String
  /-- The data tree on the host, if it is to be mounted. -/
  dataDir : Option String
  /-- The program that reaches the engine. -/
  engineBinary : String
  /-- The address of the host as containers see it. -/
  hostGateway : String
  /-- The stem of container names. -/
  nameStem : String
  /-- The module that dispatches jobs in a container. -/
  dispatchModule : String
deriving DecidableEq, Repr

/-- The engines' word for an architecture. -/
def normalizeArchitecture (s : String) : String :=
  let s := Text.asciiLower (Text.trim s)
  if s = "x86_64" ∨ s = "amd64" ∨ s = "x64" then "amd64"
  else if s = "aarch64" ∨ s = "arm64" ∨ s = "arm64v8" then "arm64"
  else s

namespace Environment

/-- The 64-bit number in a variable, if there is a readable one. -/
def number? (e : Environment) (name : String) : Option Nat :=
  (e.get? name).bind fun v => Text.unsigned? (Text.trimmed v.toList)

/-- The flag in a variable, if there is a readable one. -/
def flag? (e : Environment) (name : String) : Option Bool := do
  let v := Text.asciiLower (Text.trim (← e.get? name))
  if v ∈ ["1", "true", "yes", "on"] then some true
  else if v ∈ ["0", "false", "no", "off"] then some false
  else none

end Environment

namespace Config

/-- The configuration of explicit settings and an environment, on a host whose
    own architecture is `machine`. -/
def resolve (s : Settings) (e : Environment) (machine : String) : Config where
  jobTtlSeconds := (s.jobTtlSeconds <|> e.number? "DOCKYARD_JOB_TTL_SECONDS").getD 3600
  timeoutSeconds := (s.timeoutSeconds <|> e.number? "DOCKYARD_JOB_TIMEOUT_SECONDS").getD 3600
  sourceDir := s.sourceDir <|> e.firstOf? ["DOCKYARD_HOST_SOURCE_DIR", "DOCKYARD_SOURCE_DIR"]
  defaultImage := s.defaultImage <|> e.get? "DOCKYARD_DEFAULT_IMAGE"
  imagePrefix :=
    (s.imagePrefix <|> e.get? "DOCKYARD_IMAGE_PREFIX").getD "ghcr.io/dockyard-images"
  updateOnStart := (s.updateOnStart <|> e.flag? "DOCKYARD_UPDATE_ON_START").getD false
  updateBranch := (s.updateBranch <|> e.get? "DOCKYARD_UPDATE_BRANCH").getD "main"
  networkName := (s.networkName <|> e.get? "DOCKYARD_DOCKER_NETWORK").getD "dockyard-network"
  memoryLimit := s.memoryLimit <|> e.get? "DOCKER_MEMORY_LIMIT"
  memorySwapLimit := s.memorySwapLimit <|> e.get? "DOCKER_MEMORY_SWAP_LIMIT"
  architecture := (s.architecture <|> e.get? "DOCKYARD_DOCKER_ARCHITECTURE").getD "x86_64"
  hostArchitecture := s.hostArchitecture.getD machine
  componentsDir :=
    s.componentsDir <|> e.firstOf? ["DOCKYARD_HOST_COMPONENTS_PATH", "DOCKYARD_COMPONENTS_PATH"]
  dataDir := s.dataDir <|> e.firstOf? ["DOCKYARD_HOST_DIR", "DOCKYARD_DIR"]
  engineBinary := (s.engineBinary <|> e.get? "DOCKYARD_DOCKER_BIN").getD "docker"
  hostGateway := (s.hostGateway <|> e.get? "DOCKYARD_HOST_GATEWAY").getD "host-gateway"
  nameStem := (s.nameStem <|> e.get? "DOCKYARD_NAME_PREFIX").getD "dockyard"
  dispatchModule :=
    (s.dispatchModule <|> e.get? "DOCKYARD_DISPATCH_MODULE").getD "dockyard_worker.dispatch"

/-- The platform to ask an engine for, where the images are built for another
    architecture than the host's. -/
def platformOverride? (c : Config) : Option String :=
  let target := normalizeArchitecture c.architecture
  if normalizeArchitecture c.hostArchitecture = target then none else some ("linux/" ++ target)

/-- The platform in reports. -/
def platform (c : Config) : String :=
  c.platformOverride?.getD "native"

end Config

end ContainerJobs
