import ContainerJobs.Base64
import ContainerJobs.Job.Function
import ContainerJobs.Job.Key
import ContainerJobs.Json.Printer
import ContainerJobs.Json.Record

/-!
# Job descriptors

What a job is told to do: the function to call and its arguments. A descriptor
travels into the container as one environment variable, the Base64 text of its
compact JSON.
-/

namespace ContainerJobs

/-- The call that a job makes. -/
structure JobDescriptor where
  /-- The dotted path of the module. -/
  module : String
  /-- The name of the function within the module. -/
  function : String
  /-- The job that the call works for. -/
  key : JobKey
  /-- The node that the call resumes from, if it resumes. -/
  node : Option Nat := none
deriving DecidableEq, Repr

/-- Why a text is no descriptor. -/
inductive DescriptorFault where
  /-- The text is not Base64. -/
  | encoding (f : Base64.Fault)
  /-- The bytes are not the JSON text of a descriptor. -/
  | content
deriving DecidableEq, Repr

namespace JobFunction

/-- Writes a function. -/
def toJson (f : JobFunction) : Json :=
  .object [("module", .string f.module), ("name", .string f.name)]

/-- Reads a function. It is not validated. -/
def reader : Reader JobFunction := fun depth n => do
  match ← Reader.fields [⟨"module", false⟩, ⟨"name", false⟩] depth n with
  | (depth, [module, name]) =>
    return {
      module := ← Reader.string.required depth module
      name := ← Reader.string.required depth name }
  | _ => none

end JobFunction

namespace JobDescriptor

/-- The descriptor of a call of `f` for a job. -/
def ofFunction (f : JobFunction) (key : JobKey) (node : Option Nat) : JobDescriptor where
  module := f.module
  function := f.name
  key
  node

/-- Writes a descriptor. -/
def toJson (d : JobDescriptor) : Json :=
  .object [("module", .string d.module), ("function", .string d.function),
    ("args", .object ([("project_id", .string d.key.project),
        ("trajectory_id", .string d.key.trajectory)] ++
      ((d.node.map fun n => ("node_id", Json.nat n)).toList)))]

/-- Reads the arguments of a call. -/
def argsReader : Reader (JobKey × Option Nat) := fun depth n => do
  match ← Reader.fields [⟨"project_id", false⟩, ⟨"trajectory_id", false⟩, ⟨"node_id", false⟩]
      depth n with
  | (depth, [project, trajectory, node]) =>
    let project ← Reader.string.required depth project
    let trajectory ← Reader.string.required depth trajectory
    let node ← Reader.unsigned.optional depth node
    return ({ project, trajectory }, node)
  | _ => none

/-- Reads a descriptor. -/
def reader : Reader JobDescriptor := fun depth n => do
  match ← Reader.fields [⟨"module", false⟩, ⟨"function", false⟩, ⟨"args", false⟩] depth n with
  | (depth, [module, function, args]) =>
    let (key, node) ← argsReader.required depth args
    return {
      module := ← Reader.string.required depth module
      function := ← Reader.string.required depth function
      key, node }
  | _ => none

/-- The text that a descriptor travels as. -/
def encode (d : JobDescriptor) : String :=
  String.ofList (Base64.encode (Text.bytes d.toJson.render))

/-- The descriptor that a text stands for, after trimming. -/
def decode (s : String) : Except DescriptorFault JobDescriptor := do
  let content ← (Base64.decode (Text.bytes (Text.trim s))).mapError .encoding
  match reader.ofBytes? content with
  | some d => return d
  | none => throw .content

end JobDescriptor

end ContainerJobs
