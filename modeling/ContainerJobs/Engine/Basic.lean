import ContainerJobs.SystemError
import ContainerJobs.Text.Blank
import ContainerJobs.Text.Split

/-!
# Container engines

A container engine is driven by commands, each a list of arguments that never
passes through a shell, and answers each with two texts and an exit code. That a
command fails is part of the answer; only an engine that cannot be reached at
all gives none (`SpawnFailure`).
-/

namespace ContainerJobs

/-- The arguments of one engine command; the first one names the command. -/
abbrev Command := List String

/-- What an engine answers to a command. -/
structure Reply where
  /-- The standard output. -/
  stdout : String := ""
  /-- The standard error output. -/
  stderr : String := ""
  /-- The exit code, -1 where a signal ended the command. -/
  exitCode : Int := 0
deriving DecidableEq, Repr

/-- Why an engine could not be reached. -/
inductive SpawnCause where
  /-- The system refused. -/
  | system (e : SystemError)
  /-- A system cannot be told a text with a zero byte. -/
  | zeroByte
deriving DecidableEq, Repr

/-- The text of a cause. -/
def SpawnCause.message : SpawnCause → String
  | .system e => e.message
  | .zeroByte => "nul byte found in provided data"

/-- An engine that could not be reached. -/
structure SpawnFailure where
  /-- The program and its first argument. -/
  command : String
  /-- What went wrong. -/
  cause : SpawnCause
deriving DecidableEq, Repr

/-- The text of the failure. -/
def SpawnFailure.message (f : SpawnFailure) : String :=
  "failed to spawn `" ++ f.command ++ "`: " ++ f.cause.message

/-- The failure to start `binary` with some arguments. -/
def SpawnFailure.ofCommand (binary : String) (args : Command) (cause : SpawnCause) :
    SpawnFailure :=
  { command := binary ++ " " ++ args.headD "", cause }

/-- The answer to a command: a reply, or none at all. -/
abbrev Answer := Except SpawnFailure Reply

namespace Reply

/-- The command succeeded. -/
def isSuccess (r : Reply) : Bool := r.exitCode == 0

/-- The command failed because what it names does not exist. -/
def isNotFound (r : Reply) : Bool :=
  let err := (Text.asciiLower r.stderr).toList
  !r.isSuccess &&
    (Text.occurs "no such object".toList err || Text.occurs "no such container".toList err)

/-- Both outputs, the standard output first. -/
def combined (r : Reply) : String := r.stdout ++ r.stderr

end Reply

end ContainerJobs
