import Rollout.FileTree.Lookup
import Rollout.Options.Layering
import Rollout.Switch.Seed

/-!
# The plan of a switch

What a switch decides before it changes anything: where the old files are, where the new files
go, and the deploy spec that the project will have.
-/

namespace Rollout.Switch

/-- A request to deploy a project with another deployer. -/
structure Request where
  project : String
  deployer : String
  configPath : Option String := none
  answers : OptionMap := []
  /-- Whether the old folder goes without asking. -/
  force : Bool := false
deriving Inhabited

/-- The folders of a switch. -/
structure Plan where
  origin : Option String
  oldFolder : Option Path
  configPath : String
  newFolder : Path
deriving DecidableEq, Repr

/-- Whether the deploy spec of a project already names the deployer. -/
def deploysWith (p : Project) (d : Deployer) : Bool := p.specDeployer? = some d

/-- The config path of the project's deploy spec, if it has a spec. -/
def oldConfigPath? (p : Project) : Option String := p.deploy.map fun _ => Settings.configPathOf p

/-- The path that was asked for, else the answered one, else the old one. -/
def configPathFor (p : Project) (r : Request) : String :=
  (((r.configPath.bind Text.nonBlank?).or (r.answers.text? Settings.configPathKey)).or
    (oldConfigPath? p)).getD Settings.defaultConfigPath

def planFor (root : Path) (p : Project) (r : Request) : Plan :=
  let folder := root.child p.root
  let configPath := configPathFor p r
  { origin := p.deploy.map (·.tool)
    oldFolder := (oldConfigPath? p).map folder.child
    configPath
    newFolder := folder.child configPath }

/-- Whether the new folder is another one than the old folder, and taken. -/
def Plan.isBlocked (plan : Plan) (v : View) : Bool :=
  !(plan.oldFolder.any (·.same plan.newFolder)) && v.exists? plan.newFolder

/-- The old folder, if it is there. -/
def Plan.existing? (plan : Plan) (v : View) : Option Path := plan.oldFolder.filter v.exists?

/-- The deploy spec for the new deployer. -/
def specFor (w : Workspace) (p : Project) (d : Deployer) (r : Request) (configPath : String) :
    Spec :=
  let options := r.answers.flatten.insert Settings.configPathKey (.text configPath)
  { tool := d.id
    options
    configurations := seed w p d options
    defaultConfiguration := p.deploy.bind (·.defaultConfiguration) }

def withDeploy (p : Project) (spec : Spec) : Project :=
  { p with architect := { p.architect with deploy := some spec } }

/-- The project after the switch: with the new spec, and the deployer noted. -/
def switchedProject (p : Project) (d : Deployer) (spec : Spec) : Project :=
  { withDeploy p spec with metadata := p.metadata.insert Project.deployerNote (.text d.id) }

/-- The workspace after the switch of the project with a name, if it has one. -/
def switchedWorkspace (w : Workspace) (name : String) (d : Deployer) (spec : Spec) :
    Except WorkspaceError Workspace :=
  w.update name fun p => switchedProject p d spec

end Rollout.Switch
