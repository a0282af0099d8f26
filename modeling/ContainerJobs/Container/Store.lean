import ContainerJobs.Assoc
import ContainerJobs.Container.State
import ContainerJobs.Job.Key

/-!
# Stores of containers

The containers that an engine has, in the order in which they were made. An
engine id is made from a number that is never used again. A container is
addressed by its name or by the beginning of its id, and where several answer to
an address, the oldest one is meant.
-/

namespace ContainerJobs

/-- A container. -/
structure Container where
  /-- The id that the engine gave. -/
  id : String
  /-- The name. -/
  name : String
  /-- The image. -/
  image : String
  /-- The labels in the order of their keys. -/
  labels : List (String × String)
  /-- The variables, each as name, equals sign and value. -/
  env : List String
  /-- The state. -/
  state : ContainerState
  /-- The output so far. -/
  logs : String
  /-- The state cannot be read out in one line. -/
  garbled : Bool := false
deriving DecidableEq, Repr

namespace Container

/-- A name or the beginning of an id, by which the container is addressed. The
    empty text is the beginning of no id. -/
def answersTo (c : Container) (address : String) : Bool :=
  c.name == address ||
    (address != "" && address.toList.isPrefixOf c.id.toList)

/-- The value of a label, or nothing. -/
def label (c : Container) (key : String) : String :=
  (Assoc.get? c.labels key).getD ""

/-- The container carries a label with this value. -/
def hasLabel (c : Container) (key value : String) : Bool :=
  Assoc.get? c.labels key == some value

/-- The short form of the id. -/
def shortId (c : Container) : String :=
  String.ofList (c.id.toList.take 12)

/-- The container without the labels that hold the ids as they were given. -/
def withoutRawIds (c : Container) : Container :=
  { c with labels := Assoc.erase (Assoc.erase c.labels Label.rawProject) Label.rawTrajectory }

end Container

namespace ContainerState

/-- When the containers of a store are started. -/
def startTime : String := "2024-05-01T10:00:00Z"

/-- When the containers of a store end. -/
def endTime : String := "2024-05-01T10:05:00Z"

/-- A running container. -/
def started : ContainerState :=
  { status := "running", running := true, exitCode := 0,
    startedAt := startTime, finishedAt := EngineTime.zero }

/-- A container whose main process ended with a code. -/
def exited (exitCode : Int) : ContainerState :=
  { status := "exited", running := false, exitCode,
    startedAt := startTime, finishedAt := endTime }

/-- The exit code of a process that is killed. -/
def killedCode : Int := 137

/-- The state after a stop. Only a running container is changed by it. -/
def stopped (s : ContainerState) : ContainerState :=
  if s.running then exited killedCode else s

end ContainerState

/-- The containers of an engine. -/
structure ContainerStore where
  /-- The containers, oldest first. -/
  containers : List Container := []
  /-- The number that the last id was made from. -/
  lastNumber : Nat := 0
deriving DecidableEq, Repr

namespace ContainerStore

/-- The number in hexadecimal digits, with zeros in front up to `width` of
    them. -/
def hexNumber (width n : Nat) : List Char :=
  let ds := Nat.toDigits 16 n
  List.replicate (width - ds.length) '0' ++ ds

/-- The id that is made from a number: its 12-digit form, so that short ids tell
    containers apart, and its 52-digit form. -/
def idOf (n : Nat) : String :=
  String.ofList (hexNumber 12 n ++ hexNumber 52 n)

/-- The container that is meant by an address. -/
def find? (s : ContainerStore) (address : String) : Option Container :=
  s.containers.find? (·.answersTo address)

/-- The first container that answers to an address is changed by `f`, if there is
    one. -/
def modifyFirst (f : Container → Container) (address : String) :
    List Container → List Container
  | [] => []
  | c :: r => if c.answersTo address then f c :: r else c :: modifyFirst f address r

/-- The store with the container that is meant by an address changed by `f`. -/
def modify (s : ContainerStore) (address : String) (f : Container → Container) :
    ContainerStore :=
  { s with containers := modifyFirst f address s.containers }

/-- The store without the container that is meant by an address. -/
def erase (s : ContainerStore) (address : String) : ContainerStore :=
  { s with containers := s.containers.eraseP (·.answersTo address) }

/-- The store with a new container, made by `f` from its id. -/
def add (s : ContainerStore) (f : (id : String) → Container) : ContainerStore :=
  let n := s.lastNumber + 1
  { containers := s.containers ++ [f (idOf n)], lastNumber := n }

/-- The store with the container of a job, as an earlier launch would have left
    it. -/
def addJob (s : ContainerStore) (name : String) (key : JobKey) (state : ContainerState) :
    ContainerStore :=
  s.add fun id =>
    { id, name, state, image := "ghcr.io/dockyard-images/test"
      labels := Assoc.ofPairs key.labels, env := ["PROJECT_ID=" ++ key.project], logs := "" }

/-- The store with a running container that belongs to no job. -/
def addUnmanaged (s : ContainerStore) (name : String) : ContainerStore :=
  s.add fun id =>
    { id, name, image := name, labels := [], env := [], state := .started, logs := "" }

end ContainerStore

end ContainerJobs
