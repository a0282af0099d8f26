import ContainerJobs.Assoc
import ContainerJobs.Text.Blank

/-!
# Environments

A snapshot of environment variables. Their order is that of their names. A
variable whose value is blank counts as unset wherever a single one is asked
for, but is still listed.
-/

namespace ContainerJobs

/-- The variables of a process. -/
structure Environment where
  /-- The variables in the order of their names. -/
  entries : List (String × String)
  /-- The names ascend, so each occurs once. -/
  sorted : Assoc.Sorted entries

namespace Environment

/-- The environment of some pairs; of two pairs with one name the later wins. -/
def ofPairs (l : List (String × String)) : Environment where
  entries := Assoc.ofPairs l
  sorted := Assoc.sorted_ofPairs l

/-- No variables at all. -/
def empty : Environment := ofPairs []

/-- The value of a variable, unless it is blank. -/
def get? (e : Environment) (name : String) : Option String :=
  (Assoc.get? e.entries name).filter fun v => !Text.isBlankText v

/-- The first value among some variables. -/
def firstOf? (e : Environment) (names : List String) : Option String :=
  names.findSome? e.get?

end Environment

end ContainerJobs
