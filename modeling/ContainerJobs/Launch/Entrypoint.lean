import ContainerJobs.Config
import ContainerJobs.Launch.Layout
import ContainerJobs.Shell.Quote
import ContainerJobs.Task.Instance

/-!
# The entrypoint of a container

The one shell command that a container runs: update the source tree if that is
asked for and no tree is mounted, check out the base commit, install what the
source tree needs, say when the job starts, and dispatch the job. Each step runs
only if the one before it succeeded. All that comes from outside is quoted.
-/

namespace ContainerJobs

/-- The directory of the repository that a task works on. -/
def TaskInstance.repoDir (i : TaskInstance) : String :=
  Layout.repository i.repoName

/-- The steps of the entrypoint. -/
def entrypointSteps (c : Config) (i : TaskInstance) : List String :=
  (if c.updateOnStart && c.sourceDir.isNone then
    [Layout.updateScript ++ " --branch " ++ Shell.quote c.updateBranch]
  else []) ++
    ["cd " ++ Shell.quote i.repoDir ++ " && git checkout " ++
        Shell.quote (i.baseCommit.getD "HEAD"),
      "pip install --quiet uv && cd " ++ Layout.source ++ " && uv sync",
      "echo \"Starting job at $(date '+%Y-%m-%d %H:%M:%S')\"",
      "uv run python -m " ++ Shell.quote c.dispatchModule]

/-- The shell command of the container. -/
def entrypoint (c : Config) (i : TaskInstance) : String :=
  String.intercalate " && " (entrypointSteps c i)

end ContainerJobs
