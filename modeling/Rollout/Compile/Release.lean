import Rollout.Compile.Producers
import Rollout.Settings

/-!
# Releases

What deploying a project in a configuration amounts to: releases of a chart, one for each of
its instances, or a note that the provider has to be set up. The only thing asked of the file
system is whether the secrets of a chart are there.
-/

namespace Rollout

/-- A release of a chart. -/
structure Release where
  name : String
  project : String
  chart : Chart
  namespace_ : String
  valueFiles : List Path
  setValues : Dict String
  hasSecrets : Bool
deriving DecidableEq, Repr

/-- A note that a project needs its provider set up. -/
structure ProviderSetup where
  project : String
  deployer : Deployer
deriving DecidableEq, Repr

/-- What a deploy spec plans. -/
inductive ReleasePlan where
  | releases (rs : List Release)
  | setup (s : ProviderSetup)
deriving DecidableEq, Repr

namespace Release

/-- The folder of a chart with the values of an environment. -/
def valuesFolder (chart : Path) (key : String) : Path := (chart.child "envs").child key

def secretsFile (chart : Path) (key : String) : Path := (valuesFolder chart key).child "secrets.yaml"

/-- The values that are set on the release itself. -/
def setValuesOf (name : String) (options : OptionMap) : Dict String :=
  let values := Dict.ofEntries [("nameOverride", name), ("fullnameOverride", name)]
  let values := match (options.get? "port").bind OptionValue.scalarText? with
    | some port => values.insert "service.port" port
    | none => values
  match options.text? "healthCheckPath" with
  | some path => values.insert "healthCheck.path" path
  | none => values

/-- The option that names the folder of a project's own chart. -/
def chartPathKey : String := "chartPath"

/-- The folder of the project's own chart, seen from the workspace. -/
def ownChart? (p : Project) (options : OptionMap) : Option Path :=
  (options.text? chartPathKey).map fun path => Path.join ⟨p.root⟩ ⟨path⟩

/-- The value files of a chart; `own` says that it is the project's, `secret` that its secrets
are there. -/
def valueFilesOf (chart : Chart) (key : String) (own secret : Bool) : List Path :=
  match chart with
  | .remote _ => []
  | .folder path =>
    (if own then [path.child "values.yaml"] else []) ++
      [(valuesFolder path key).child "values.yaml"] ++
      (if secret then [secretsFile path key] else [])

/-- A release with these options; `present` answers whether a path exists. -/
def compile (present : Path → Bool) (root : Path) (charts : ChartTable) (w : Workspace)
    (project : String) (p : Project) (key name : String) (options : OptionMap) : Release :=
  let own := ownChart? p options
  let chart := match own with
    | some path => .folder path
    | none => charts.forLanguage p.language
  let secret := match chart with
    | .folder path => present (root.join (secretsFile path key))
    | .remote _ => false
  { name
    project
    chart
    namespace_ :=
      Settings.namespaceOf w key (Deployer.provider .helm) (options.text? "namespace")
    valueFiles := valueFilesOf chart key own.isSome secret
    setValues := setValuesOf name options
    hasSecrets := secret }

/-- The option that lists the instances of a project. -/
def instancesKey : String := "instances"

/-- The name of an instance and the options of its own. -/
def instance? : OptionValue → Option (String × OptionMap)
  | .map entries => do
    let name ← (Dict.get? "name" entries).bind OptionValue.scalarText?
    let name ← Text.nonBlank? name
    return (name, Dict.erase "name" entries)
  | item => do
    let name ← item.scalarText?.bind Text.nonBlank?
    return (name, [])

/-- The instances that the options list, if they do. -/
def instances? (options : OptionMap) : Option (List (String × OptionMap)) :=
  match options.get? instancesKey with
  | some (.list items) => some (items.filterMap instance?)
  | _ => none

/-- The releases of a project: one for each instance, or one with the project's name. -/
def compileAll (present : Path → Bool) (root : Path) (charts : ChartTable) (w : Workspace)
    (project : String) (p : Project) (key : String) (options : OptionMap) : List Release :=
  match instances? options with
  | none => [compile present root charts w project p key project options]
  | some instances => instances.map fun (name, own) =>
    compile present root charts w project p key (project ++ "-" ++ name)
      (options.merge (some own))

def toJson (r : Release) : Json :=
  .object [("name", .text r.name), ("project", .text r.project), ("chart", r.chart.toJson),
    ("namespace", .text r.namespace_), ("valueFiles", .array (r.valueFiles.map (.text ·.text))),
    ("setValues", .object (r.setValues.map fun (k, v) => (k, .text v))),
    ("hasSecrets", .bool r.hasSecrets)]

end Release

def ProviderSetup.toJson (s : ProviderSetup) : Json :=
  .object [("project", .text s.project), ("deployer", .text s.deployer.id)]

/-- What a project's deploy spec plans in a configuration, if its deployer is known. -/
def ReleasePlan.compile? (producers : Producers) (present : Path → Bool) (root : Path)
    (w : Workspace) (name : String) (p : Project) (key : String) : Option ReleasePlan := do
  let deploy ← p.deploy
  match ← producers.deployers.get? deploy.tool with
  | .charts table =>
    return .releases (Release.compileAll present root table w name p key (deploy.optionsFor key))
  | .setup deployer => return .setup ⟨name, deployer⟩

end Rollout
