import Rollout.Output.Basic
import Rollout.Yaml.Printer

/-!
# The workflow for continuous deployment

One job for each deployer that some project deploys with; a job compiles the profiles of its
projects. Without any job the workflow is left alone.
-/

namespace Rollout.Workflow

/-- The projects that one deployer deploys. -/
structure Job where
  deployer : Deployer
  projects : List String
deriving DecidableEq, Repr

/-- The jobs of a workspace. -/
def jobs (w : Workspace) : List Job :=
  w.activeDeployers.map fun d => ⟨d, w.projectsUsing d⟩

namespace Job

def id (job : Job) : String := "deploy-" ++ job.deployer.id

/-- The command that compiles the profiles of the job's projects. -/
def command (job : Job) : String :=
  "keel compile" ++ String.join (job.projects.map (" --project " ++ ·)) ++ " > profiles.json"

/-- The step that prepares a deployer, by name and action. -/
def setup : Deployer → String × String
  | .helm => ("Set up helm", "azure/setup-helm@v4")
  | .firebase => ("Set up firebase", "FirebaseExtended/action-hosting-deploy@v0")
  | .cloudRun => ("Authenticate to Google Cloud", "google-github-actions/auth@v2")

def actionStep (step : String × String) : Yaml :=
  .map [("name", .text step.1), ("uses", .text step.2)]

def toYaml (job : Job) : Yaml :=
  .map [("name", .text ("Deploy " ++ job.deployer.id ++ " projects")),
    ("runs-on", .text "ubuntu-latest"),
    ("steps", .list [actionStep ("Checkout", "actions/checkout@v4"),
      actionStep (setup job.deployer),
      .map [("name", .text "Compile profiles"), ("run", .text job.command)]])]

end Job

/-- The workflow with these jobs, in the order of their ids. -/
def toYaml (jobs : List Job) : Yaml :=
  .map [("name", .text "keel deploy"),
    ("on", .map [("push", .map [("branches", .list [.text "main"])]),
      ("workflow_dispatch", .map [])]),
    ("jobs", .map (Dict.ofEntries (jobs.map fun job => (job.id, job.toYaml))))]

def header : String := "# Generated by keel. Regenerated on every \x60keel switch\x60.\n"

/-- The file of the workflow, seen from the workspace. -/
def path : Path := ⟨".github/workflows/keel-deploy.yml"⟩

/-- The files of the workflow: one, or none where there are no jobs. -/
def files (w : Workspace) : List (Path × String) :=
  match jobs w with
  | [] => []
  | jobs => [(path, header ++ (toYaml jobs).write)]

/-- Writes the workflow below a folder. -/
def regenerate (faults : WriteFaults) (w : Workspace) (root : Path) :
    DiskTask OutputError (List Path) :=
  writeFiles faults 1 ((files w).map fun (path, content) => (root.join path, content))

end Rollout.Workflow
