import Rollout.Compile.Artifact
import Rollout.Compile.Release

/-!
# Profiles

A profile gathers, for one configuration key, the artifacts and releases of the selected
projects. The keys are those of the projects' build configurations, a project takes part in
the keys that it declares itself, and a profile without artifacts is dropped.
-/

namespace Rollout

/-- What is deployed in a profile. -/
structure Deployment where
  releases : List Release := []
  providerSetup : List ProviderSetup := []
deriving DecidableEq, Repr

/-- The compiled output for one configuration key. -/
structure Profile where
  name : String
  artifacts : List Artifact := []
  deployment : Deployment := {}
deriving DecidableEq, Repr

def Deployment.isEmpty (d : Deployment) : Bool := d.releases.isEmpty && d.providerSetup.isEmpty

namespace Profile

def release? (profile : Profile) (name : String) : Option Release :=
  profile.deployment.releases.find? (·.name = name)

def artifact? (profile : Profile) (project : String) : Option Artifact :=
  profile.artifacts.find? (·.project = project)

/-- The selected projects in the order of their names; an empty selection selects all. -/
def select (w : Workspace) (selected : List String) :
    Except WorkspaceError (List (String × Project)) :=
  if selected.isEmpty then .ok w.projects
  else (Dict.sortedKeys selected).mapM fun name => (w.project name).map fun p => (name, p)

def declares (p : Project) (key : String) : Bool := p.buildKeys.contains key

/-- The configuration keys of the projects, sorted. -/
def keys (projects : List (String × Project)) : List String :=
  Dict.sortedKeys (projects.flatMap fun (_, p) => p.buildKeys)

section

variable (producers : Producers) (present : Path → Bool) (settings : CompileSettings)
  (w : Workspace)

/-- Adds what a project contributes to a profile. -/
def add (profile : Profile) (name : String) (p : Project) : Profile :=
  let artifacts := (Artifact.compile? producers w name p profile.name settings).toList
  let deployment := match
      ReleasePlan.compile? producers present settings.workspaceRoot w name p profile.name with
    | some (.releases rs) =>
      { profile.deployment with releases := profile.deployment.releases ++ rs }
    | some (.setup s) =>
      { profile.deployment with providerSetup := profile.deployment.providerSetup ++ [s] }
    | none => profile.deployment
  { profile with artifacts := profile.artifacts ++ artifacts, deployment }

/-- The profile of a key. -/
def compileKey (projects : List (String × Project)) (key : String) : Profile :=
  (projects.filter fun (_, p) => declares p key).foldl
    (fun profile (name, p) => profile.add producers present settings w name p) { name := key }

/-- The profiles of the selected projects, in the order of their keys. -/
def compile (selected : List String) : Except WorkspaceError (List Profile) := do
  let projects ← select w selected
  return ((keys projects).map (compileKey producers present settings w projects)).filter
    fun profile => !profile.artifacts.isEmpty

end

def deploymentJson (d : Deployment) : Json :=
  .object (("releases", .array (d.releases.map Release.toJson)) ::
    if d.providerSetup.isEmpty then []
    else [("providerSetup", .array (d.providerSetup.map ProviderSetup.toJson))])

def toJson (profile : Profile) : Json :=
  .object [("name", .text profile.name),
    ("artifacts", .array (profile.artifacts.map Artifact.toJson)),
    ("deployment", deploymentJson profile.deployment)]

def allJson (profiles : List Profile) : Json := .array (profiles.map toJson)

end Profile
end Rollout
