import ContainerJobs.CommandLine.Printout
import ContainerJobs.Task.Directory
import Std.Time.DateTime.Timestamp

/-!
# The command line program

Reads the environment, the clock and the file of a task, carries out one action,
and prints what it says. The engine is reached through the standard streams: each
command goes out as one line of JSON, the list of its arguments, on the standard
error output, and one line of JSON comes in for it on the standard input, with
the members `out`, `err` and `code`, or with the member `errno` where the engine
cannot be reached.
-/

namespace ContainerJobs.Main

/-! ## The host -/

/-- The variables of this process. -/
def hostEnvironment : IO Environment := do
  let content ← try IO.FS.readBinFile "/proc/self/environ" catch _ => pure .empty
  let entries := Text.split '\x00' (Text.lossy content.data.toList).toList
  return .ofPairs <| (entries.filterMap (Text.cut? '=')).map fun (name, value) =>
    (String.ofList name, String.ofList value)

/-- The architecture of this machine. -/
def machine : IO String := do
  try
    return Text.trim (← IO.FS.readFile "/proc/sys/kernel/arch")
  catch _ => return "x86_64"

/-- The present. -/
def clock : IO Instant := do
  let nanos := (← Std.Time.Timestamp.now).toNanosecondsSinceUnixEpoch.val
  return { second := nanos / Instant.nanosPerSecond,
           nano := (nanos % Instant.nanosPerSecond).toNat }

/-- The number of a failed system call, 5 for failures that have none. -/
def systemError : IO.Error → SystemError
  | .noFileOrDirectory _ code _ | .inappropriateType _ code _ | .permissionDenied _ code _
  | .invalidArgument _ code _ | .resourceExhausted _ code _ | .noSuchThing _ code _
  | .otherError code _ | .illegalOperation code _ => ⟨code.toNat⟩
  | _ => ⟨5⟩

/-- The text of a file. -/
def readText (path : String) : IO (Except FileFault String) := do
  try
    match Text.ofBytes? (← IO.FS.readBinFile path).data.toList with
    | some s => return .ok s
    | none => return .error .notUtf8
  catch e => return .error (.system (systemError e))

/-- The instances that an invocation may need. Only a start looks one up. -/
def instances (i : CommandLine.Invocation) : IO InstanceSource := do
  match i.action with
  | .start key .. =>
    if Directory.isPlainName key.trajectory then
      let text ← readText (Directory.join i.instancesDir (Directory.fileName key.trajectory))
      return Directory.instanceOf i.instancesDir fun _ => text
    else return fun _ => .error .notPlainName
  | _ => return fun _ => .error .unknown

/-! ## The engine -/

/-- The answer that a line stands for. A line that cannot be read is an engine
    that is gone. -/
def answerOf (binary : String) (args : Command) (line : String) : Answer :=
  let gone (code : Nat) : Answer := .error (.ofCommand binary args (.system ⟨code⟩))
  match Json.ofText? line with
  | none => gone 32
  | some j =>
    match (j.get? "errno").bind Json.signed? with
    | some code => gone code.toNat
    | none =>
      .ok {
        stdout := ((j.get? "out").bind Json.string?).getD ""
        stderr := ((j.get? "err").bind Json.string?).getD ""
        exitCode := ((j.get? "code").bind Json.signed?).getD 0 }

/-- Puts a command to the engine. -/
def askEngine (binary : String) (args : Command) : IO Answer := do
  let err ← IO.getStderr
  err.putStrLn (Json.array (args.map .string)).render
  err.flush
  return answerOf binary args (← (← IO.getStdin).getLine)

/-- Carries out a dialogue with the engine. Starts in other processes are not
    locked out. -/
def converse {α : Type} (binary : String) : Dialogue α → StartLock → IO α
  | .done value, _ => return value
  | .ask c next, lock => do converse binary (next (← askEngine binary c)) lock
  | .acquire name next, lock =>
    match lock.acquire? name with
    | some (g, lock) => converse binary (next (some g)) lock
    | none => converse binary (next none) lock
  | .release g next, lock => converse binary next (lock.release g)

/-! ## The program -/

/-- Prints what an action says; gives the exit code. -/
def print (p : CommandLine.Printout) : IO UInt32 := do
  IO.print p.stdout
  match p.message? with
  | none => return 0
  | some m =>
    IO.eprintln ("Error: " ++ m)
    return 1

/-- One pass of reaping after the other, without an end. -/
partial def reapForever (r : Runner) (project : Option String) (interval : Nat) : IO UInt32 := do
  let present ← clock
  let _ ← converse r.config.engineBinary
    (r.reap r.config.reapPolicy present present project) .always
  IO.sleep (min (interval * 1000) 4294967295).toUInt32
  reapForever r project interval

/-- Carries out an invocation. -/
def perform (i : CommandLine.Invocation) : IO UInt32 := do
  let host ← hostEnvironment
  let config := Config.resolve {} host (← machine)
  let r : Runner := { config, instances := ← instances i, host }
  match i.action with
  | .reap project false (interval + 1) => reapForever r project (interval + 1)
  | action =>
    print (← converse config.engineBinary (action.perform r (← clock)) .always)

/-- How the program is used. -/
def usage : String :=
  "usage: dockyard [--instances-dir DIR] ACTION [OPTIONS]\n" ++
    "actions: " ++ String.intercalate " " (CommandLine.actionForms.map (·.name))

end ContainerJobs.Main

/-- Carries out the action that the arguments name. -/
def main (args : List String) : IO UInt32 := do
  match ContainerJobs.CommandLine.Invocation.ofArgs args with
  | .ok i => ContainerJobs.Main.perform i
  | .error .help =>
    IO.println ContainerJobs.Main.usage
    return 0
  | .error .usage =>
    IO.eprintln ContainerJobs.Main.usage
    return 2
