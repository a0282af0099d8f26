/-!
# Label values

Container engines restrict label values and names to a small alphabet and to a
certain length. `Label.sanitize` maps any text into it: letters in lower case,
digits, `.`, `_` and `-`, at most 63 of them, with a letter or digit at both
ends. Different texts may get the same label.
-/

namespace ContainerJobs.Label

/-- The character that stands for `c` in a label. -/
def charOf (c : Char) : Char :=
  let c := c.toLower
  if c.isAlphanum || c == '.' || c == '_' || c == '-' then c else '-'

/-- The text without its longest final part that has no letter or digit. -/
def dropEnd (l : List Char) : List Char :=
  (l.reverse.dropWhile fun c => !c.isAlphanum).reverse

/-- The text without anything but letters and digits at its ends, cut to at most
    `max` characters, again without anything else at its end. Where nothing is
    left, an `x` stands for it. -/
def clip (max : Nat) (l : List Char) : List Char :=
  let l := dropEnd (((dropEnd (l.dropWhile fun c => !c.isAlphanum))).take max)
  if l.isEmpty then ['x'] else l

/-- The greatest length of a label value. -/
def maxLength : Nat := 63

/-- The label value of a text, as characters. -/
def sanitized (l : List Char) : List Char :=
  clip maxLength (l.map charOf)

/-- The label value of a text. -/
def sanitize (s : String) : String :=
  String.ofList (sanitized s.toList)

/-- A label value cut down to be a part of a name. -/
def segment (max : Nat) (s : String) : List Char :=
  clip max (sanitized s.toList)

/-! ## The keys of the labels -/

/-- Marks the containers that belong to jobs. -/
def managed : String := "dockyard.managed"

/-- Holds the project id as a label value. -/
def project : String := "project_id"

/-- Holds the trajectory id as a label value. -/
def trajectory : String := "trajectory_id"

/-- Holds the project id as it was given. -/
def rawProject : String := "dockyard.project_id"

/-- Holds the trajectory id as it was given. -/
def rawTrajectory : String := "dockyard.trajectory_id"

/-- The listing filter for one value of a label. -/
def filter (key value : String) : String :=
  "label=" ++ key ++ "=" ++ value

/-- The listing filter for the containers of jobs. -/
def managedFilter : String := filter managed "true"

/-- The listing filter for the containers of a project, and of any project with
    the same label value. -/
def projectFilter (projectId : String) : String :=
  filter project (sanitize projectId)

end ContainerJobs.Label
