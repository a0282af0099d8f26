/-!
# System errors

The error numbers of POSIX systems with their texts. A failed system call is
reported by both.
-/

namespace ContainerJobs

/-- A failed system call, by its error number. -/
structure SystemError where
  /-- The error number. -/
  code : Nat
deriving DecidableEq, Repr

namespace SystemError

/-- There is no file of that name. -/
def notFound : SystemError := ⟨2⟩

/-- The file is a directory. -/
def isDirectory : SystemError := ⟨21⟩

/-- The name is longer than file names may be. -/
def nameTooLong : SystemError := ⟨36⟩

/-- The texts of the error numbers from 1 on. -/
def texts : List String :=
  ["Operation not permitted", "No such file or directory", "No such process",
    "Interrupted system call", "Input/output error", "No such device or address",
    "Argument list too long", "Exec format error", "Bad file descriptor", "No child processes",
    "Resource temporarily unavailable", "Cannot allocate memory", "Permission denied",
    "Bad address", "Block device required", "Device or resource busy", "File exists",
    "Invalid cross-device link", "No such device", "Not a directory", "Is a directory",
    "Invalid argument", "Too many open files in system", "Too many open files",
    "Inappropriate ioctl for device", "Text file busy", "File too large",
    "No space left on device", "Illegal seek", "Read-only file system", "Too many links",
    "Broken pipe", "Numerical argument out of domain", "Numerical result out of range",
    "Resource deadlock avoided", "File name too long", "No locks available",
    "Function not implemented", "Directory not empty", "Too many levels of symbolic links"]

/-- The text of a system error. -/
def text (e : SystemError) : String :=
  if e.code = 0 then "Success" else (texts[e.code - 1]?).getD s!"Unknown error {e.code}"

/-- The text of a system error, with its number. -/
def message (e : SystemError) : String :=
  s!"{e.text} (os error {e.code})"

end SystemError

end ContainerJobs
