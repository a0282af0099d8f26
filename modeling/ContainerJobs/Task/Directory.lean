import ContainerJobs.SystemError
import ContainerJobs.Task.Instance
import ContainerJobs.Text.Blank
import ContainerJobs.Text.Utf8

/-!
# A directory of task instances

The instance of a trajectory is in the file that is named after the trajectory,
with `.json` at the end, in one directory. Only plain file names are looked up,
so a trajectory id never leads out of the directory.
-/

namespace ContainerJobs

/-- What is found under a name in a directory. -/
inductive Entry where
  /-- A file with its content. -/
  | file (content : List UInt8)
  /-- A directory. -/
  | directory

/-- Why the text of a file could not be read. -/
inductive FileFault where
  /-- A system call failed. -/
  | system (e : SystemError)
  /-- The name holds a zero character, which no file name can. -/
  | zeroInName
  /-- The content is not UTF-8. -/
  | notUtf8
  /-- The text is not an instance in JSON. -/
  | malformed
deriving DecidableEq, Repr

/-- The text of a fault. -/
def FileFault.message : FileFault → String
  | .system e => e.message
  | .zeroInName => "file name contained an unexpected NUL byte"
  | .notUtf8 => "stream did not contain valid UTF-8"
  | .malformed => "<json error>"

/-- A directory without deeper levels. -/
structure Directory where
  /-- The path of the directory. -/
  path : String
  /-- What it holds, by name; of two entries with one name the later counts. -/
  entries : List (String × Entry)

namespace Directory

/-- The greatest length of a file name in bytes. -/
def maxNameLength : Nat := 255

/-- The text of the file with a name. -/
def readText (d : Directory) (name : String) : Except FileFault String :=
  if '\x00' ∈ name.toList then .error .zeroInName
  else if maxNameLength < name.utf8ByteSize then .error (.system .nameTooLong)
  else
    match d.entries.reverse.lookup name with
    | none => .error (.system .notFound)
    | some .directory => .error (.system .isDirectory)
    | some (.file content) =>
      match Text.ofBytes? content with
      | some s => .ok s
      | none => .error .notUtf8

/-- The id can be used as a file name: it has no path separator of any system
    and does not start with a dot. -/
def isPlainName (id : String) : Bool :=
  let l := id.toList
  !(l.contains '/' || l.contains '\\' || l.head? == some '.')

/-- The name of the file of a trajectory. -/
def fileName (trajectory : String) : String := trajectory ++ ".json"

/-- The path of a file in a directory. -/
def join (directory name : String) : String :=
  if directory.toList.getLast? = some '/' then directory ++ name
  else directory ++ "/" ++ name

/-- The instance in the file of a trajectory, where `readText` gives the text of
    a file by its name. -/
def instanceOf (path : String) (readText : String → Except FileFault String) :
    InstanceSource := fun trajectory => do
  if !isPlainName trajectory then throw .notPlainName
  let name := fileName trajectory
  let file := InstanceFault.file (join path name)
  let text ← (readText name).mapError fun e => file e.message
  match TaskInstance.reader.ofText? text with
  | none => throw (file FileFault.malformed.message)
  | some i => if Text.isBlankText i.repo then throw .emptyRepo else return i

/-- The instances of the trajectories with a file in the directory. -/
def instances (d : Directory) : InstanceSource :=
  instanceOf d.path d.readText

end Directory

end ContainerJobs
