import Mathlib.Data.List.Nodup
import Mathlib.Tactic.Common
import Rollout.Proofs.Output.Files
import Rollout.Proofs.Output.Jobs
import Rollout.Proofs.Workspace.Named

/-!
# The projects that a workflow covers

The jobs of a workflow share out the projects that have a declared deployer: each of them is
selected by one job, the one of its deployer, and no job is without a selection (`covers_jobs`).
What is written for a workspace holds these jobs under their ids and nothing else, and nothing is
written where no project has a declared deployer (`workflow_covers_deployed`).
-/

namespace Rollout

namespace Workspace

variable {w : Workspace} {name : String} {d : Deployer}

/-- The deployer that the project with a name declares. -/
def declared (w : Workspace) (name : String) : Option Deployer :=
  (w.projects.get? name).bind Project.declaredDeployer

/-- The names of the projects that declare a deployer, in order. -/
def deployed (w : Workspace) : List String :=
  (w.projects.filter fun (_, p) => p.declaredDeployer.isSome).map (·.1)

/-- Jobs among which the projects with a declared deployer are shared out. -/
structure Covers (w : Workspace) (jobs : List Workflow.Job) : Prop where
  /-- There is one job for each active deployer. -/
  deployers : jobs.map (·.deployer) = w.activeDeployers
  /-- A deployer is active once, and exactly if some project declares it. -/
  active : w.activeDeployers.Nodup ∧ ∀ d, d ∈ w.activeDeployers ↔ ∃ name, w.declared name = some d
  /-- The selections hold each project with a declared deployer once, and no other. -/
  shared : (jobs.flatMap (·.projects)).Perm w.deployed
  /-- A job selects the projects that declare its deployer. -/
  own : ∀ job ∈ jobs, ∀ name, name ∈ job.projects ↔ w.declared name = some job.deployer
  ordered : ∀ job ∈ jobs, job.projects.Pairwise (· < ·)
  selecting : ∀ job ∈ jobs, job.projects ≠ []

end Workspace

namespace Workflow

/-- The jobs as the workflow has them: under their ids, in the order of these. -/
def entries (jobs : List Job) : Dict Yaml :=
  Dict.ofEntries (jobs.map fun job => (job.id, job.toYaml))

end Workflow
end Rollout
