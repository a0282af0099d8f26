import ContainerJobs.Job.Key
import ContainerJobs.Text.Blank
import ContainerJobs.Text.Split
import ContainerJobs.Time.Reading

/-!
# Container listings

An engine lists containers one a line, in the fields that a template asks for,
with U+001F between them. From a row of the full listing the job of a container
is known by the ids as they were given, or, on containers that lack those, by the
label values made from them.
-/

namespace ContainerJobs

/-- The templates of listings, and their rows. -/
structure ListedContainer where
  /-- The name of the container. -/
  name : String
  /-- The job, by its ids or by the label values made from them. -/
  key : JobKey
  /-- The key holds the ids as they were given. -/
  hasRawIds : Bool
  /-- When the container was created, if that can be read. -/
  createdAt : Option Instant
deriving DecidableEq, Repr

namespace Listing

/-- The character between two fields. -/
def separator : Char := '\x1f'

/-- The template of a label. -/
def labelField (key : String) : String :=
  "\x7b\x7b.Label \"" ++ key ++ "\"\x7d\x7d"

/-- Fields with separators between them. -/
def row (fields : List String) : String :=
  String.intercalate (String.singleton separator) fields

/-- The template of the full listing: name, label values, ids as given, state
    and creation time. -/
def format : String :=
  row ["\x7b\x7b.Names\x7d\x7d", labelField Label.project, labelField Label.trajectory,
    labelField Label.rawProject, labelField Label.rawTrajectory, "\x7b\x7b.State\x7d\x7d",
    "\x7b\x7b.CreatedAt\x7d\x7d"]

/-- The template of the listing for a bulk cancel: container id and project id as
    given. -/
def cancelFormat : String :=
  row ["\x7b\x7b.ID\x7d\x7d", labelField Label.rawProject]

end Listing

namespace ListedContainer

/-- The container of a line of the full listing. There is none without a name or
    without both ids. -/
def ofLine? (line : List Char) : Option ListedContainer :=
  let line := Text.dropEndWhile (fun c => c == '\r' || c == '\n') line
  match Text.split Listing.separator line with
  | name :: project :: trajectory :: rawProject :: rawTrajectory :: _ :: created :: _ =>
    let trim := fun l => String.ofList (Text.trimmed l)
    let raw : JobKey := { project := trim rawProject, trajectory := trim rawTrajectory }
    let hasRawIds := raw.project ≠ "" && raw.trajectory ≠ ""
    let key := if hasRawIds then raw
      else { project := trim project, trajectory := trim trajectory }
    let name := trim name
    if name = "" ∨ key.project = "" ∨ key.trajectory = "" then none
    else some { name, key, hasRawIds, createdAt := Instant.ofListing? (String.ofList created) }
  | _ => none

/-- The container belongs to a project, as far as its row tells. -/
def belongsTo (c : ListedContainer) (project : String) : Bool :=
  if c.hasRawIds then c.key.project == project
  else c.key.project == Label.sanitize project

end ListedContainer

/-- The containers of the full listing that belong to a project, or all of
    them. -/
def Listing.containers (stdout : String) (project : Option String) : List ListedContainer :=
  ((Text.lines stdout.toList).filterMap ListedContainer.ofLine?).filter fun c =>
    project.all c.belongsTo

/-- The ids of the listing for a bulk cancel that belong to a project, or to no
    project that is given. -/
def Listing.cancelIds (stdout : String) (project : String) : List String :=
  (Text.lines stdout.toList).filterMap fun line =>
    let (id, raw) := (Text.cut? Listing.separator line).getD (line, [])
    let id := String.ofList (Text.trimmed id)
    let raw := String.ofList (Text.trimmed raw)
    if id ≠ "" ∧ (raw = "" ∨ raw = project) then some id else none

end ContainerJobs
