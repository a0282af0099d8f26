import ContainerJobs.CommandLine.Words
import ContainerJobs.Job.Key
import ContainerJobs.Text.Decimal

/-!
# Invocations

What the command line can be told to do. It names one action, with the options
of that action, and in any place the directory of the task instances.
-/

namespace ContainerJobs.CommandLine

/-- An action on jobs. -/
inductive Action where
  /-- Starts a job that calls a function. -/
  | start (key : JobKey) (function : String) (node : Option Nat)
      (image memory memorySwap : Option String)
  /-- Shows the status of a job. -/
  | status (key : JobKey)
  /-- Lists jobs. -/
  | list (project : Option String)
  /-- Counts jobs by status. -/
  | summary (project : Option String)
  /-- Calls off a job, or all jobs of a project. -/
  | cancel (project : String) (trajectory : Option String)
  /-- Removes a job. -/
  | cleanup (key : JobKey)
  /-- Shows the output of a job. -/
  | logs (key : JobKey)
  /-- Shows the report on a job. -/
  | details (key : JobKey)
  /-- Shows whether the engine answers. -/
  | info
  /-- Removes old jobs, once or every `interval` seconds. -/
  | reap (project : Option String) (once : Bool) (interval : Nat)
deriving DecidableEq, Repr

/-- What the command line is told. -/
structure Invocation where
  /-- The directory of the task instances. -/
  instancesDir : String
  /-- The action. -/
  action : Action
deriving DecidableEq, Repr

/-! ## Options -/

/-- The value is a 64-bit number. -/
def isNumber (s : String) : Bool :=
  (Text.unsigned? s.toList).isSome

/-- The directory of the task instances, which must not be empty. -/
def instancesDirOption : OptionForm :=
  { name := "instances-dir", accepts := (· != "") }

/-- The project. -/
def projectOption : OptionForm := { name := "project", letter := some 'p' }

/-- The trajectory. -/
def trajectoryOption : OptionForm := { name := "trajectory", letter := some 't' }

namespace Reading

/-- The value of an option that has to be given. -/
def need (s : Reading) (o : OptionForm) : Except Refusal String :=
  match s.get? o.name with
  | some v => .ok v
  | none => .error .usage

/-- The number that was given to an option. -/
def number? (s : Reading) (name : String) : Option Nat :=
  (s.get? name).bind fun v => Text.unsigned? v.toList

/-- The job that was given by project and trajectory. -/
def key (s : Reading) : Except Refusal JobKey := do
  return { project := ← s.need projectOption, trajectory := ← s.need trajectoryOption }

end Reading

/-! ## Actions by name -/

/-- How an action is written. -/
structure ActionForm where
  /-- The name of the action. -/
  name : String
  /-- Its options. -/
  options : List OptionForm
  /-- The action that some options make, if none is missing. -/
  action : Reading → Except Refusal Action

/-- How `Action.start` is written. -/
def startForm : ActionForm :=
  let func : OptionForm := { name := "func", letter := some 'f' }
  { name := "start"
    options := [projectOption, trajectoryOption, func,
      { name := "node", letter := some 'n', accepts := isNumber },
      { name := "image", letter := some 'i' }, { name := "memory", letter := some 'm' },
      { name := "memory-swap" }]
    action := fun s => do
      return .start (← s.key) (← s.need func) (s.number? "node") (s.get? "image")
        (s.get? "memory") (s.get? "memory-swap") }

/-- How `Action.reap` is written. -/
def reapForm : ActionForm :=
  { name := "reap"
    options := [projectOption, { name := "once", takesValue := false },
      { name := "interval-secs", accepts := isNumber }]
    action := fun s =>
      .ok (.reap (s.get? projectOption.name) (s.get? "once").isSome
        ((s.number? "interval-secs").getD 60)) }

/-- How all actions are written. -/
def actionForms : List ActionForm :=
  [startForm,
    { name := "status", options := [projectOption, trajectoryOption],
      action := fun s => do return .status (← s.key) },
    { name := "list", options := [projectOption],
      action := fun s => .ok (.list (s.get? projectOption.name)) },
    { name := "summary", options := [projectOption],
      action := fun s => .ok (.summary (s.get? projectOption.name)) },
    { name := "cancel", options := [projectOption, trajectoryOption],
      action := fun s => do
        return .cancel (← s.need projectOption) (s.get? trajectoryOption.name) },
    { name := "cleanup", options := [projectOption, trajectoryOption],
      action := fun s => do return .cleanup (← s.key) },
    { name := "logs", options := [projectOption, trajectoryOption],
      action := fun s => do return .logs (← s.key) },
    { name := "details", options := [projectOption, trajectoryOption],
      action := fun s => do return .details (← s.key) },
    { name := "info", options := [], action := fun _ => .ok .info },
    reapForm]

/-- The action of a name. -/
def actionForm? (name : String) : Option ActionForm :=
  actionForms.find? (·.name == name)

/-- The word names an action or asks for help. -/
def isActionName (w : String) : Bool :=
  w == "help" || (actionForm? w).isSome

/-- What follows a request for help: nothing, or one action. -/
def helpOn : List String → Refusal
  | [] => .help
  | [w] => if isActionName w then .help else .usage
  | _ => .usage

/-- The invocation that the arguments after the program's name make. A directory
    that is given behind the action's name counts more than one in front. -/
def Invocation.ofArgs (args : List String) : Except Refusal Invocation := do
  let (front, rest) ← Reading.words [instancesDirOption] isActionName {} args
  match rest with
  | [] => throw .usage
  | name :: rest =>
    match actionForm? name with
    | none => throw (helpOn rest)
    | some form =>
      let (back, _) ← Reading.words (instancesDirOption :: form.options) (fun _ => false) {} rest
      let back ← back.settle
      let action ← form.action back
      let front ← front.settle
      let dir := back.get? instancesDirOption.name <|> front.get? instancesDirOption.name
      return { instancesDir := dir.getD "instances", action }

end ContainerJobs.CommandLine
