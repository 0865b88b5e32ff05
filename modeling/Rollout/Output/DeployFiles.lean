import Rollout.Output.Basic
import Rollout.Settings
import Rollout.Yaml.Printer

/-!
# Deployment files

The files that a project needs to be deployed with a deployer: base files, and for a deployer
with environments one file for each configuration of the deploy spec. Their paths are seen from
the folder into which they are generated.
-/

namespace Rollout.DeployFiles

/-- The configurations of the deploy spec. -/
def configurations (p : Project) : Dict OptionMap := (p.deploy.map (·.configurations)).getD []

/-- The port of the options, else the one that the project resolves to. -/
def portFor (p : Project) (options : OptionMap) (d : Deployer) : UInt16 :=
  (Settings.portOption? options).getD (Settings.portOf p "" d.id)

/-- The file with the overlay of a configuration. -/
def overlayFile (fileName key : String) (overlay : OptionMap) : Path × String :=
  (((Path.mk "envs").child key).child fileName, overlay.toYaml.write)

def overlayFiles (fileName : String) (p : Project) : List (Path × String) :=
  (configurations p).map fun (key, overlay) => overlayFile fileName key overlay

def chartVersion : String := "0.1.0"

def chartYaml (name : String) : Yaml :=
  .map [("apiVersion", .text "v2"), ("name", .text name),
    ("description", .text ("Helm chart for " ++ name)), ("type", .text "application"),
    ("version", .text chartVersion), ("appVersion", .text chartVersion)]

def valuesYaml (name : String) (port : UInt16) (healthCheck : Option String) : Yaml :=
  .map ([("replicaCount", .ofNat 1),
    ("image", .map [("repository", .text name), ("tag", .text "latest")]),
    ("service", .map [("port", .ofNat port.toNat)])] ++
    match healthCheck with
    | some path => [("healthCheck", .map [("path", .text path)])]
    | none => [])

def helmBase (name : String) (p : Project) (options : OptionMap) : List (Path × String) :=
  [(⟨"Chart.yaml"⟩, (chartYaml name).write),
    (⟨"values.yaml"⟩,
      (valuesYaml name (portFor p options .helm) (options.text? "healthCheckPath")).write)]

def defaultPublicFolder : String := "dist"

def hostingJson (publicFolder : String) : Json :=
  .object [("hosting", .object [
    ("ignore", .array [.text "firebase.json", .text "**/.*", .text "**/node_modules/**"]),
    ("public", .text publicFolder),
    ("rewrites", .array [.object [("destination", .text "/index.html"), ("source", .text "**")]])])]

/-- The projects that names stand for: `default` by the options, then each configuration. -/
def aliases (p : Project) (options : OptionMap) : Dict String :=
  let base := match options.text? "projectId" with
    | some id => [("default", id)]
    | none => []
  (configurations p).foldl (fun names (key, overlay) =>
    match overlay.text? "projectId" with
    | some id => names.insert key id
    | none => names) base

def aliasesJson (names : Dict String) : Json :=
  .object [("projects", .object (names.map fun (key, id) => (key, .text id)))]

def firebaseFiles (p : Project) (options : OptionMap) : List (Path × String) :=
  let publicFolder := (options.text? "publicDir").getD defaultPublicFolder
  [(⟨"firebase.json"⟩, (hostingJson publicFolder).pretty ++ "\n"),
    (⟨".firebaserc"⟩, (aliasesJson (aliases p options)).pretty ++ "\n")]

def serviceYaml (name : String) (port : UInt16) : Yaml :=
  .map [("apiVersion", .text "serving.knative.dev/v1"), ("kind", .text "Service"),
    ("metadata", .map [("name", .text name)]),
    ("spec", .map [("template", .map [("spec", .map [("containers", .list [
      .map [("image", .text name),
        ("ports", .list [.map [("containerPort", .ofNat port.toNat)]])]])])])])]

def cloudRunBase (name : String) (p : Project) (options : OptionMap) : List (Path × String) :=
  [(⟨"service.yaml"⟩, (serviceYaml name (portFor p options .cloudRun)).write)]

/-- The files for a deployer, in the order in which they are written. -/
def files (d : Deployer) (name : String) (p : Project) (options : OptionMap) :
    List (Path × String) :=
  match d with
  | .helm => helmBase name p options ++ overlayFiles "values.yaml" p
  | .firebase => firebaseFiles p options
  | .cloudRun => cloudRunBase name p options ++ overlayFiles "config.yaml" p

/-- Writes the files below a folder and returns their paths. -/
def generate (faults : WriteFaults) (d : Deployer) (name : String) (p : Project)
    (options : OptionMap) (dest : Path) : DiskTask OutputError (List Path) :=
  writeFiles faults 1
    ((files d name p options).map fun (path, content) => (dest.join path, content))

end Rollout.DeployFiles
