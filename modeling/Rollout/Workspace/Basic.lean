import Rollout.Deployer
import Rollout.Options.Layering
import Rollout.Path

/-!
# Workspaces

A workspace declares projects, and defaults for building, for environments and for
infrastructure providers. What other tools keep in the same document is carried along in the
`extra` fields. A project is known by its key, which is also its name in a workspace that was
read from a document (`Workspace.named`).
-/

namespace Rollout

/-- Members of a document that belong to other tools. -/
abbrev Extra := Dict Json

/-- How a project is built or deployed: the tool, its options, and options by configuration. -/
structure Spec where
  tool : String
  options : OptionMap
  configurations : Dict OptionMap
  defaultConfiguration : Option String
deriving Inhabited

/-- The options in a configuration: its own over the common ones. -/
def Spec.optionsFor (s : Spec) (key : String) : OptionMap :=
  s.options.merge (s.configurations.get? key)

/-- The specs of a project. -/
structure Architect where
  build : Option Spec := none
  deploy : Option Spec := none
  extra : Extra := []
deriving Inhabited

/-- A project: where it is, its language, its specs, overrides for local work by deploy target,
and notes about it. Its name is the key under which the document has it. -/
structure Project where
  name : String := ""
  root : String
  language : String
  architect : Architect
  localOptions : Dict OptionMap
  metadata : OptionMap
  extra : Extra
deriving Inhabited

structure WorkspaceInfo where
  name : String := ""
  extra : Extra := []
deriving Inhabited

structure BuildDefaults where
  registry : Option String := none
  platform : Option String := none
  extra : Extra := []
deriving Inhabited

/-- Defaults for one environment. -/
structure EnvironmentDefaults where
  registry : Option String := none
  region : Option String := none
  cluster : Option String := none
  namespace_ : Option String := none
  extra : Extra := []
deriving Inhabited

/-- Defaults for one infrastructure provider. -/
structure ProviderDefaults where
  cluster : Option String := none
  namespace_ : Option String := none
  region : Option String := none
  projectId : Option String := none
  extra : Extra := []
deriving Inhabited

/-- A workspace document. -/
structure Workspace where
  info : WorkspaceInfo
  projects : Dict Project
  build : BuildDefaults
  environments : Dict EnvironmentDefaults
  infrastructure : Dict ProviderDefaults
  extra : Extra
deriving Inhabited

/-- What can be wrong with a workspace or with a request about one. -/
inductive WorkspaceError where
  | projectNotFound (name : String)
  | unknownDeployer (id : String)
  | invalidDocument (file : Path)
  | unsupportedVersion (found : Nat)
deriving DecidableEq, Repr

/-- The version of the document format that is read and written. -/
def Workspace.formatVersion : Nat := 1

def WorkspaceError.message : WorkspaceError → String
  | projectNotFound name => "project '" ++ name ++ "' not found in workspace"
  | unknownDeployer id =>
    "unknown deployer '" ++ id ++ "' (expected one of: helm, firebase, cloudrun)"
  | invalidDocument file => "invalid workspace document " ++ file.text
  | unsupportedVersion found =>
    "unsupported workspace version " ++ toString found ++ " (expected " ++
      toString Workspace.formatVersion ++ ")"

/-- The deployer that a spec names. -/
def Spec.deployer (s : Spec) : Except WorkspaceError Deployer :=
  (Deployer.read s.tool).mapError .unknownDeployer

namespace Project

def build (p : Project) : Option Spec := p.architect.build

def deploy (p : Project) : Option Spec := p.architect.deploy

/-- The note in which a switch records the deployer. -/
def deployerNote : String := "deployer"

/-- The configuration keys that a project builds. -/
def buildKeys (p : Project) : List String := (p.build.map (·.configurations.keys)).getD []

/-- The deployer of the deploy spec, where that is a known one. -/
def specDeployer? (p : Project) : Option Deployer := p.deploy.bind (·.deployer.toOption)

/-- The deployer that a project deploys with: the recorded one, else that of its spec. -/
def declaredDeployer (p : Project) : Option Deployer :=
  (((p.metadata.get? deployerNote).bind OptionValue.asText?).bind Deployer.read?).or
    p.specDeployer?

end Project

namespace Workspace

def project (w : Workspace) (name : String) : Except WorkspaceError Project :=
  match w.projects.get? name with
  | some p => .ok p
  | none => .error (.projectNotFound name)

/-- Changes a project in place. -/
def update (w : Workspace) (name : String) (f : Project → Project) :
    Except WorkspaceError Workspace :=
  (w.project name).map fun p => { w with projects := w.projects.insert name (f p) }

/-- The workspace with every project named by its key. -/
def named (w : Workspace) : Workspace :=
  { w with projects := w.projects.map fun (key, p) => (key, { p with name := key }) }

/-- The name of the workspace, `workspace` where it has none. -/
def name (w : Workspace) : String := (Text.nonBlank? w.info.name).getD "workspace"

/-- The registry that the workspace builds for. -/
def defaultRegistry (w : Workspace) : Option String := w.build.registry.bind Text.nonBlank?

/-- The projects that deploy with a deployer, in the order of their names. -/
def projectsUsing (w : Workspace) (d : Deployer) : List String :=
  (w.projects.filter fun (_, p) => p.declaredDeployer = some d).map (·.1)

/-- The deployers that some project deploys with. -/
def activeDeployers (w : Workspace) : List Deployer :=
  Deployer.all.filter fun d => !(w.projectsUsing d).isEmpty

end Workspace
end Rollout
