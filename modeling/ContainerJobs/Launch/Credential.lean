import ContainerJobs.Text.Blank
import ContainerJobs.Text.Split

/-!
# Credentials

Which variables of the host are handed to jobs as credentials, and which values
reports must not show. Whatever is handed on is hidden too, in any case of its
letters.
-/

namespace ContainerJobs

/-- The variable is a credential that jobs get. -/
def isForwardedCredential (name : String) : Bool :=
  let l := name.toList
  "API_KEY".toList.isSuffixOf l || "AWS_".toList.isPrefixOf l || "GCP_".toList.isPrefixOf l ||
    "AZURE_".toList.isPrefixOf l

/-- The parts of a name that tell of a secret. -/
def secretMarks : List String :=
  ["KEY", "PASSWORD", "SECRET", "TOKEN", "CREDENTIAL"]

/-- The value of the variable must not be shown. -/
def isSensitive (name : String) : Bool :=
  let upper := Text.asciiUpper name
  secretMarks.any (fun m => Text.occurs m.toList upper.toList) || isForwardedCredential upper

end ContainerJobs
