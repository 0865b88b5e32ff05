import Mathlib.Tactic.Common
import Rollout.Output.Workflow
import Rollout.Proofs.Dict

/-!
# The jobs of a workflow

A project with a declared deployer is listed for this deployer and for no other, and so it is in
one job of the workflow (`deploysBy_of_declared`).
-/

namespace Rollout

namespace Workspace

variable {w : Workspace} {name : String} {d : Deployer}

theorem mem_projectsUsing (hw : w.projects.Sorted) :
    name ∈ w.projectsUsing d ↔ (w.projects.get? name).bind Project.declaredDeployer = some d := by
  rw [projectsUsing, List.mem_map, Option.bind_eq_some_iff]
  constructor
  · rintro ⟨e, he, rfl⟩
    obtain ⟨hmem, hdeclared⟩ := List.mem_filter.1 he
    exact ⟨e.2, (Dict.get?_eq_some_iff hw).2 hmem, of_decide_eq_true hdeclared⟩
  · rintro ⟨p, hp, hdeclared⟩
    refine ⟨(name, p), List.mem_filter.2 ⟨(Dict.get?_eq_some_iff hw).1 hp, ?_⟩, rfl⟩
    exact decide_eq_true hdeclared

/-- There is one job for each deployer that some project deploys with, with all its projects. -/
theorem mem_jobs {job : Workflow.Job} : job ∈ Workflow.jobs w ↔
    job.projects = w.projectsUsing job.deployer ∧ job.projects ≠ [] := by
  rw [Workflow.jobs, List.mem_map]
  constructor
  · rintro ⟨d, hd, rfl⟩
    refine ⟨rfl, ?_⟩
    simpa using (List.mem_filter.1 hd).2
  · rintro ⟨hprojects, hsome⟩
    refine ⟨job.deployer, List.mem_filter.2 ⟨?_, ?_⟩, ?_⟩
    · cases job.deployer <;> decide
    · rw [← hprojects]
      simpa using hsome
    · rw [← hprojects]

/-- A project deploys by a deployer, and all that is asked of the workspace says so. -/
structure DeploysBy (w : Workspace) (name : String) (d : Deployer) : Prop where
  declared : (w.projects.get? name).bind Project.declaredDeployer = some d
  listed : ∀ other, name ∈ w.projectsUsing other ↔ other = d
  job : ∃ job ∈ Workflow.jobs w, job.id = "deploy-" ++ d.id ∧ name ∈ job.projects
  jobs : ∀ job ∈ Workflow.jobs w, name ∈ job.projects ↔ job.deployer = d

theorem deploysBy_of_declared (hw : w.projects.Sorted)
    (h : (w.projects.get? name).bind Project.declaredDeployer = some d) : w.DeploysBy name d := by
  have hlisted (other : Deployer) : name ∈ w.projectsUsing other ↔ other = d := by
    rw [mem_projectsUsing hw, h, Option.some.injEq, eq_comm]
  refine ⟨h, hlisted, ⟨⟨d, w.projectsUsing d⟩, ?_, rfl, (hlisted d).2 rfl⟩, fun job hjob => ?_⟩
  · exact mem_jobs.2 ⟨rfl, List.ne_nil_of_mem ((hlisted d).2 rfl)⟩
  · rw [(mem_jobs.1 hjob).1, hlisted]

end Workspace
end Rollout
