import Rollout.Workspace.Basic

/-!
# Settings

Every setting of a project in an environment is the first usable value of a fixed chain of
sources. A blank value is not usable, and each chain ends in a default, so that a setting
always has a value.
-/

namespace Rollout

/-- The first value that is there and not blank. -/
def firstUsable : List (Option String) → Option String
  | [] => none
  | source :: sources => (source.bind Text.nonBlank?).or (firstUsable sources)

/-- Values that a caller sets by hand. -/
structure Overrides where
  registry : Option String := none
  region : Option String := none
  cluster : Option String := none
  namespace_ : Option String := none
deriving Inhabited

/-- The settings of a project in an environment. -/
structure Settings where
  project : String
  environment : String
  registry : String
  port : UInt16
  region : String
  cluster : String
  namespace_ : String
  deployTargets : List String
  configPath : String
deriving DecidableEq, Repr

namespace Settings

/-- The environment in which a project's own local options count. -/
def localEnvironment : String := "local"

def defaultRegion : String := "us-central1"

def defaultNamespace : String := "default"

def defaultConfigPath : String := "deploy"

def defaultTarget : String := "helm"

/-- The provider of the cluster, and of projects without a known deployer. -/
def clusterProvider : String := "kubernetes"

variable (w : Workspace) (environment : String)

def fromEnvironment (get : EnvironmentDefaults → Option String) : Option String :=
  (w.environments.get? environment).bind get

def fromProvider (provider : String) (get : ProviderDefaults → Option String) : Option String :=
  (w.infrastructure.get? provider).bind get

/-- By hand, by the build options, by the environment, by default; else empty. -/
def registryOf (explicit : Option String) (buildOptions : OptionMap)
    (defaultRegistry : Option String) : String :=
  (firstUsable [explicit, buildOptions.text? "registry", fromEnvironment w environment (·.registry),
    defaultRegistry]).getD ""

/-- By hand, by the environment, by the provider. -/
def regionOf (provider : String) (explicit : Option String) : String :=
  (firstUsable [explicit, fromEnvironment w environment (·.region),
    fromProvider w provider (·.region)]).getD defaultRegion

/-- By hand, by the environment, by the cluster's provider; else empty. -/
def clusterOf (explicit : Option String) : String :=
  (firstUsable [explicit, fromEnvironment w environment (·.cluster),
    fromProvider w clusterProvider (·.cluster)]).getD ""

/-- By hand, by the environment, by the provider. -/
def namespaceOf (provider : String) (explicit : Option String) : String :=
  (firstUsable [explicit, fromEnvironment w environment (·.namespace_),
    fromProvider w provider (·.namespace_)]).getD defaultNamespace

/-- The port that projects in a language use unless they say otherwise. -/
def defaultPort (language : String) : UInt16 :=
  if language = "node-service" then 3000
  else if language = "angular" then 4200
  else if language = "vue" then 5173
  else 8080

def portOption? (options : OptionMap) : Option UInt16 :=
  (options.get? "port").bind OptionValue.asPort?

/-- The port of the local options for a target. -/
def localPort? (p : Project) (target : String) : Option UInt16 :=
  (p.localOptions.get? target).bind portOption?

/-- The port among the options that the deploy spec groups under a target. -/
def targetPort? (p : Project) (target : String) : Option UInt16 :=
  match p.deploy.bind (·.options.get? target) with
  | some (.map options) => portOption? options
  | _ => none

/-- Locally by the local options; then by the deploy options, then by the language. -/
def portOf (p : Project) (environment target : String) : UInt16 :=
  ((if environment = localEnvironment then localPort? p target else none).or
    (targetPort? p target)).getD (defaultPort p.language)

/-- The targets that the deploy options list, or the default one. -/
def targetsOf (p : Project) : List String :=
  let listed := match p.deploy.bind (·.options.get? "targets") with
    | some (.list items) => items.filterMap OptionValue.nonBlankText?
    | _ => []
  if listed.isEmpty then [defaultTarget] else listed

/-- The option that names the folder of the deployment files. -/
def configPathKey : String := "configPath"

/-- The folder of the deployment files, seen from the project. -/
def configPathOf (p : Project) : String :=
  (p.deploy.bind (·.options.text? configPathKey)).getD defaultConfigPath

/-- The provider whose defaults a project takes. -/
def providerOf (p : Project) : String :=
  (p.specDeployer?.map Deployer.provider).getD clusterProvider

/-- All settings of a project; the port is that of its first target. -/
def resolve (name : String) (p : Project) (overrides : Overrides) : Settings :=
  let provider := providerOf p
  let buildOptions := (p.build.map (·.optionsFor environment)).getD []
  let targets := targetsOf p
  { project := name
    environment
    registry := registryOf w environment overrides.registry buildOptions w.defaultRegistry
    port := portOf p environment (targets.head?.getD defaultTarget)
    region := regionOf w environment provider overrides.region
    cluster := clusterOf w environment overrides.cluster
    namespace_ := namespaceOf w environment provider overrides.namespace_
    deployTargets := targets
    configPath := configPathOf p }

def toJson (s : Settings) : Json :=
  .object [("project", .text s.project), ("environment", .text s.environment),
    ("registry", .text s.registry), ("port", .number (.integer s.port.toNat)),
    ("region", .text s.region), ("cluster", .text s.cluster), ("namespace", .text s.namespace_),
    ("deployTargets", .array (s.deployTargets.map .text)), ("configPath", .text s.configPath)]

end Settings
end Rollout
