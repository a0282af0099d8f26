/-!
# Start locks

To start a job is to check and then to act, so two starts of one job may both
find it missing. A start lock, keyed by the name of the container, makes one of
them give way. The open lock grants everything; the exclusive one grants a name
to one guard at a time, until the guard is dropped.
-/

namespace ContainerJobs

/-- What a lock grants to one start. -/
structure Guard where
  /-- The name that was asked for. -/
  name : String
  /-- The name is held until the guard is dropped. -/
  held : Bool
deriving DecidableEq, Repr

/-- The text of a guard in reports on its state. -/
def Guard.text (g : Guard) : String :=
  "StartGuard \x7b held: " ++ toString g.held ++ " \x7d"

/-- A start lock. -/
inductive StartLock where
  /-- Grants every name, always. -/
  | always
  /-- Grants each name once at a time; holds the names that are taken. -/
  | exclusive (taken : List String)
deriving DecidableEq, Repr

namespace StartLock

/-- An exclusive lock with nothing taken. -/
def fresh : StartLock := exclusive []

/-- The name is taken. -/
def isHeld (name : String) : StartLock → Bool
  | always => false
  | exclusive taken => taken.contains name

/-- The guard for a name and the lock afterwards, unless the name is taken. -/
def acquire? (name : String) : StartLock → Option (Guard × StartLock)
  | always => some ({ name, held := false }, always)
  | exclusive taken =>
    if taken.contains name then none
    else some ({ name, held := true }, exclusive (name :: taken))

/-- The lock after a guard is dropped. -/
def release (g : Guard) : StartLock → StartLock
  | always => always
  | exclusive taken => exclusive (if g.held then taken.erase g.name else taken)

end StartLock

/-- A lock with the guards that are out, oldest first. -/
structure GuardedLock where
  /-- The lock. -/
  lock : StartLock
  /-- The guards that have not been dropped. -/
  guards : List Guard := []
deriving DecidableEq, Repr

namespace GuardedLock

/-- Asks for a name. -/
def acquire (name : String) (l : GuardedLock) : Option Guard × GuardedLock :=
  match l.lock.acquire? name with
  | none => (none, l)
  | some (g, lock) => (some g, { lock, guards := l.guards ++ [g] })

/-- Drops the oldest guard for a name; says whether there was one. -/
def release (name : String) (l : GuardedLock) : Bool × GuardedLock :=
  match l.guards.find? (·.name == name) with
  | none => (false, l)
  | some g => (true, { lock := l.lock.release g, guards := l.guards.erase g })

end GuardedLock

end ContainerJobs
