import Rollout.Compile.Producers
import Rollout.Platform
import Rollout.Settings

/-!
# Artifacts

The container image of a project in a configuration: its name in the registry, the target that
builds it, and the arguments of the build.
-/

namespace Rollout

/-- An image to build. -/
structure Artifact where
  project : String
  imageName : String
  buildTarget : String
  buildArgs : List String
deriving DecidableEq, Repr

/-- What a compilation is told besides the workspace. -/
structure CompileSettings where
  platform : Platform := .host
  registryOverride : Option String := none
  defaultRegistry : Option String := none
  workspaceRoot : Path := ⟨""⟩
deriving Inhabited

namespace Artifact

/-- Drops every leading `./`. -/
def dropCurrent : List Char → List Char
  | '.' :: '/' :: cs => dropCurrent cs
  | cs => cs

def isSlash (c : Char) : Bool := c = '/'

/-- The package of a project root, without slashes at its ends. -/
def packageOf (root : String) : String :=
  let cs := dropCurrent (Text.trim root).toList
  String.ofList ((cs.dropWhile isSlash).reverse.dropWhile isSlash).reverse

/-- The label that builds the image; services written in Go have a folder for their entry. -/
def targetOf (root language : String) : String :=
  let package := packageOf root
  let package :=
    if language ≠ "go" then package
    else if package = "" then "cmd/server"
    else package ++ "/cmd/server"
  "//" ++ package ++ ":image"

/-- The project below its registry; without a registry the project alone. -/
def imageNameOf (registry project : String) : String :=
  let registry := String.ofList ((Text.trim registry).toList.reverse.dropWhile isSlash).reverse
  if registry = "" then project else registry ++ "/" ++ project

/-- The argument that names the configuration. -/
def configurationFlag (key : String) : String := "--config=" ++ key

/-- The target that a producer builds for a project, if it makes an image. -/
def buildTarget? (producer : ArtifactProducer) (p : Project) : Option String :=
  match producer with
  | .image => some (targetOf p.root p.language)
  | .bundle => none
  | .fixed target => some target

/-- The image of a project in a configuration, if its builder is known and makes one. -/
def compile? (producers : Producers) (w : Workspace) (name : String) (p : Project) (key : String)
    (settings : CompileSettings) : Option Artifact := do
  let build ← p.build
  let producer ← producers.builders.get? build.tool
  let target ← buildTarget? producer p
  let registry := Settings.registryOf w key settings.registryOverride (build.optionsFor key)
    (settings.defaultRegistry.or w.defaultRegistry)
  return {
    project := name
    imageName := imageNameOf registry name
    buildTarget := target
    buildArgs := settings.platform.buildFlags ++ [configurationFlag key] }

def toJson (a : Artifact) : Json :=
  .object [("project", .text a.project), ("imageName", .text a.imageName),
    ("buildTarget", .text a.buildTarget), ("buildArgs", .array (a.buildArgs.map .text))]

end Artifact
end Rollout
