import ContainerJobs.Container.Listing
import ContainerJobs.Container.Store
import ContainerJobs.Engine.Dialogue
import ContainerJobs.Json.Printer

/-!
# An engine in memory

An engine that keeps its containers in a store, for rehearsals without a real
one. It understands the commands that a runner gives, `inspect`, `run`, `ps`,
`stop`, `rm`, `logs` and `info`, and answers in the words of a real engine. It can
be told to refuse launches, and to be unreachable behind its command line.
-/

namespace ContainerJobs

/-- The state of an engine in memory. -/
structure InMemory where
  /-- The containers. -/
  store : ContainerStore := {}
  /-- Launches are refused. -/
  refusesLaunch : Bool := false
  /-- No command gets through to the engine. -/
  isDown : Bool := false
deriving DecidableEq, Repr

namespace InMemory

/-! ## Replies -/

/-- A success with an output. -/
def succeed (stdout : String) : Reply := { stdout }

/-- A failure with an error text. -/
def refuse (exitCode : Int) (stderr : String) : Reply := { stderr, exitCode }

/-- There is no container of this address. -/
def noContainer (address : String) : Reply :=
  refuse 1 ("Error: No such container: " ++ address ++ "\n")

/-- There is nothing at all of this address. -/
def noObject (address : String) : Reply :=
  refuse 1 ("Error: No such object: " ++ address ++ "\n")

/-- What every command gets from an engine that is down. -/
def down : Reply :=
  refuse 1 "Cannot connect to the Docker daemon at unix:///var/run/docker.sock. Is the docker daemon running?"

/-- Success, unless one of the addresses was missing. -/
def unlessMissing (missing : List String) (stdout : String) : Reply :=
  match missing with
  | [] => succeed stdout
  | address :: _ => noContainer address

/-- The words that stand right after an option. -/
def optionValues (option : String) : Command → List String
  | a :: b :: r =>
    if a = option then b :: optionValues option (b :: r) else optionValues option (b :: r)
  | _ => []

/-! ## Inspection -/

/-- The state of a container in one line. -/
def stateLine (s : ContainerState) : String :=
  s.status ++ "," ++ toString s.running ++ "," ++ String.ofList (Text.ofInt s.exitCode) ++ "," ++
    s.startedAt ++ "," ++ s.finishedAt ++ "\n"

/-- The state of a container as a part of the full inspection. -/
def stateJson (s : ContainerState) : Json :=
  .object [("Error", .string ""), ("ExitCode", .int s.exitCode),
    ("FinishedAt", .string s.finishedAt), ("OOMKilled", .bool false),
    ("Running", .bool s.running), ("StartedAt", .string s.startedAt),
    ("Status", .string s.status)]

/-- The full inspection of a container. -/
def inspection (c : Container) : Json :=
  .array [.object [
    ("Config", .object [
      ("Cmd", .array
        [.string "sh", .string "-c", .string "uv run python -m dockyard_worker.dispatch"]),
      ("Env", .array (c.env.map .string)),
      ("Image", .string c.image),
      ("Labels", .object (c.labels.map fun (k, v) => (k, .string v)))]),
    ("Created", .string "2024-05-01T09:59:58.000000000Z"),
    ("Driver", .string "overlay2"),
    ("Id", .string c.id),
    ("Mounts", .array []),
    ("Name", .string ("/" ++ c.name)),
    ("NetworkSettings", .object [
      ("Gateway", .string "172.18.0.1"), ("IPAddress", .string "172.18.0.2"),
      ("Networks", .object []), ("Ports", .object [])]),
    ("Platform", .string "linux"),
    ("State", stateJson c.state)]]

/-- The answer to an inspection of the last argument. -/
def inspect (s : ContainerStore) (args : Command) : Reply :=
  let address := args.getLastD ""
  match s.find? address with
  | none => noObject address
  | some c =>
    if optionValues "--format" args = [ContainerState.lineFormat] then
      succeed (if c.garbled then "<no value>\n" else stateLine c.state)
    else succeed (inspection c).render

/-! ## Launch -/

/-- The container that a launch makes. The image stands before the three words
    of the shell command. -/
def launched (args : Command) (name id : String) : Container where
  id
  name
  image := if args.length < 4 then "" else (args[args.length - 4]?).getD ""
  labels := Assoc.ofPairs ((optionValues "--label" args).filterMap fun l =>
    (Text.cut? '=' l.toList).map fun (k, v) => (String.ofList k, String.ofList v))
  env := optionValues "-e" args
  state := .started
  logs := ""

/-- A launch, under a name that is not taken. -/
def launch (s : ContainerStore) (args : Command) : Reply × ContainerStore :=
  match optionValues "--name" args with
  | [] => (refuse 125 "--name is required", s)
  | name :: _ =>
    if (s.find? name).isSome then
      (refuse 125 ("docker: Error response from daemon: Conflict. The container name \"/" ++
        name ++ "\" is already in use."), s)
    else
      let s' := s.add (launched args name)
      (succeed (ContainerStore.idOf s'.lastNumber ++ "\n"), s')

/-! ## Listing -/

/-- When the containers of a listing were made. -/
def creationTime : String := "2024-05-01 09:59:58 +0000 UTC"

/-- The line of a container in a listing. -/
def listingLine (quiet : Bool) (format : Option String) (c : Container) : String :=
  if quiet then c.shortId
  else if format = some Listing.format then
    Listing.row [c.name, c.label Label.project, c.label Label.trajectory,
      c.label Label.rawProject, c.label Label.rawTrajectory, c.state.status, creationTime]
  else if format = some Listing.cancelFormat then
    Listing.row [c.shortId, c.label Label.rawProject]
  else c.name

/-- The label and value of a filter, if it is a filter by label. -/
def labelFilter? (filter : String) : Option (String × String) := do
  let l ← Text.after? "label=".toList filter.toList
  let (key, value) ← Text.cut? '=' l
  return (String.ofList key, String.ofList value)

/-- A listing of the running containers, or of all, that pass all filters. -/
def list (s : ContainerStore) (args : Command) : Reply :=
  let all := args.contains "-a"
  let filters := (optionValues "--filter" args).filterMap labelFilter?
  let shown := s.containers.filter fun c =>
    (all || c.state.running) && filters.all fun (key, value) => c.hasLabel key value
  let line := listingLine (args.contains "-q") (optionValues "--format" args).head?
  succeed (String.join (shown.map fun c => line c ++ "\n"))

/-! ## Teardown -/

/-- Carries out `f` for each address in turn, and collects those that no
    container answers to. -/
def forEach (f : ContainerStore → String → ContainerStore) (s : ContainerStore) :
    List String → List String × ContainerStore
  | [] => ([], s)
  | address :: r =>
    if (s.find? address).isSome then forEach f (f s address) r
    else
      let (missing, s) := forEach f s r
      (address :: missing, s)

/-- Stops containers. -/
def stop (s : ContainerStore) (addresses : List String) : Reply × ContainerStore :=
  let (missing, s) := forEach
    (fun s address => s.modify address fun c => { c with state := c.state.stopped }) s addresses
  (unlessMissing missing (String.intercalate "\n" addresses), s)

/-- Removes containers. -/
def remove (s : ContainerStore) (args : List String) : Reply × ContainerStore :=
  let (missing, s) := forEach ContainerStore.erase s
    (args.filter fun a => a.toList.head? != some '-')
  (unlessMissing missing "", s)

/-! ## All commands -/

/-- The output of a container. -/
def logs (s : ContainerStore) (args : List String) : Reply :=
  let address := args.headD ""
  match (args.head?.bind s.find?) with
  | some c => succeed c.logs
  | none => noContainer address

/-- The answer to a command, and the engine afterwards. -/
def reply (e : InMemory) (args : Command) : Reply × InMemory :=
  if e.isDown then (down, e)
  else
    match args with
    | "inspect" :: _ => (inspect e.store args, e)
    | "run" :: _ =>
      if e.refusesLaunch then
        (refuse 125 "Unable to find image locally\ndocker: Error response from daemon: pull access denied", e)
      else
        let (r, store) := launch e.store args
        (r, { e with store })
    | "ps" :: _ => (list e.store args, e)
    | "stop" :: addresses =>
      let (r, store) := stop e.store addresses
      (r, { e with store })
    | "rm" :: r =>
      let (r, store) := remove e.store r
      (r, { e with store })
    | "logs" :: r => (logs e.store r, e)
    | "info" :: _ => (succeed "24.0.7\n", e)
    | _ => (refuse 125 ("unknown command: " ++ args.headD ""), e)

/-- The engine in memory. It can always be reached. -/
def engine : Engine InMemory := fun args e =>
  let (r, e) := e.reply args
  (.ok r, e)

/-- The engine with the container that is meant by an address changed by `f`,
    unless there is none. -/
def modify? (e : InMemory) (address : String) (f : Container → Container) : Option InMemory :=
  if (e.store.find? address).isSome then some { e with store := e.store.modify address f }
  else none

end InMemory

end ContainerJobs
