import ContainerJobs.Text.Blank
import ContainerJobs.Text.Split

/-!
# Job functions

A job runs a function that is known by the dotted path of its module and its
name. `JobFunction.parse` reads such a reference, and accepts exactly two or
more identifiers with single dots between them.
-/

namespace ContainerJobs

/-- A function by reference. -/
structure JobFunction where
  /-- The dotted path of the module. -/
  module : String
  /-- The name within the module. -/
  name : String
deriving DecidableEq, Repr

/-- What is wrong with a reference to a function. -/
inductive ReferenceFault where
  /-- There is no dot in it. -/
  | noModule
  /-- The part after the last dot is no identifier. -/
  | badName
  /-- The part before the last dot is no path of identifiers. -/
  | badModule
deriving DecidableEq, Repr

/-- The text of a fault. -/
def ReferenceFault.message : ReferenceFault → String
  | .noModule => "expected `module.function`"
  | .badName => "function name is not an identifier"
  | .badModule => "module path is not a dotted identifier path"

/-- A reference that names no function, and why. -/
structure BadReference where
  /-- The reference. -/
  reference : String
  /-- What is wrong with it. -/
  fault : ReferenceFault
deriving DecidableEq, Repr

/-- An ASCII letter or underscore, and then ASCII letters, digits and
    underscores. -/
def isIdentifier : List Char → Bool
  | [] => false
  | c :: r => (c.isAlpha || c == '_') && r.all fun c => c.isAlphanum || c == '_'

namespace JobFunction

/-- The whole reference. -/
def reference (f : JobFunction) : String :=
  f.module ++ "." ++ f.name

/-- The function, if both its parts are made of identifiers. -/
def validate (f : JobFunction) : Except BadReference JobFunction :=
  if !isIdentifier f.name.toList then .error ⟨f.reference, .badName⟩
  else if !(Text.split '.' f.module.toList).all isIdentifier then
    .error ⟨f.reference, .badModule⟩
  else .ok f

/-- The function of a reference with a dot between module and name, after
    trimming. A reference without a dot is reported as it was given. -/
def parse (s : String) : Except BadReference JobFunction :=
  match Text.cutLast? '.' (Text.trimmed s.toList) with
  | none => .error ⟨s, .noModule⟩
  | some (module, name) =>
    validate { module := String.ofList module, name := String.ofList name }

/-- The reference that a job is told. A module that is named after the function
    stands for the function by itself. -/
def qualifiedName (f : JobFunction) : String :=
  if ('.' :: f.name.toList).isSuffixOf f.module.toList then f.module else f.reference

end JobFunction

end ContainerJobs
