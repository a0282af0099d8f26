import ContainerJobs.Engine.Dialogue

/-!
# Engines with prescribed answers

An engine that gives the answers of a list one after the other, whatever it is
asked, and refuses everything once the list is used up.
-/

namespace ContainerJobs

/-- The answers that are still to come: a reply, or a system error that keeps the
    engine from being reached. -/
abbrev Script := List (Except SystemError Reply)

namespace Script

/-- The answer to every command after the last prescribed one. -/
def exhausted : Reply :=
  { stderr := "no scripted reply", exitCode := 125 }

/-- The engine that follows a script. -/
def engine : Engine Script := fun args s =>
  match s with
  | [] => (.ok exhausted, [])
  | .ok r :: rest => (.ok r, rest)
  | .error cause :: rest => (.error (.ofCommand "docker" args (.system cause)), rest)

end Script

end ContainerJobs
