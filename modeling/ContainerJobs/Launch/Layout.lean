/-!
# The file tree of a container

Where the parts of a job's environment are found inside its container.
-/

namespace ContainerJobs.Layout

/-- The data tree. -/
def data : String := "/data/dockyard"

/-- The source tree. -/
def source : String := "/opt/dockyard/source"

/-- The components tree. -/
def components : String := "/opt/components"

/-- The directory of the repositories. -/
def workspace : String := "/workspace"

/-- The language data. -/
def nltkData : String := "/data/nltk_data"

/-- The script that updates the source tree. -/
def updateScript : String := "/opt/dockyard/source/docker/update.sh"

/-- The directory of a repository. -/
def repository (name : String) : String := workspace ++ "/" ++ name

end ContainerJobs.Layout
