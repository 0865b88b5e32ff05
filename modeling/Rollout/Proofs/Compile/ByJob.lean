import Mathlib.Tactic.Common
import Rollout.Proofs.Compile.Shown
import Rollout.Proofs.Output.Jobs

/-!
# Compiling job by job

Each job of the workflow compiles the projects of one deployer. For a key under which a project of
the job makes an image this gives every project of the job the part that it has in the profiles of
all projects. Under the other keys the job has no profile, and what all projects together keep a
profile for is not in it (`jobs_keep_built_keys`).
-/

namespace Rollout.Profile

/-- A project of the job makes an image under a key. -/
def BuildsImage (producers : Producers) (w : Workspace) (job : Workflow.Job) (key : String) : Prop :=
  ∃ name ∈ job.projects, ∃ p, w.projects.get? name = some p ∧ declares p key ∧
    makesImage producers p

section

variable {producers : Producers} {present : Path → Bool} {settings : CompileSettings}
  {w : Workspace} {selected : List String} {key name : String}

/-- The part of a project is the same for every selection that chooses it. -/
theorem part_of_chosen (hw : w.projects.Sorted) (hname : name ∈ selected) :
    (compileKey producers present settings w (chosen w selected) key).part name =
      (compileKey producers present settings w (chosen w []) key).part name := by
  have htaking : taking w selected key name = taking w [] key name := by
    refine List.filter_congr fun e he => ?_
    obtain ⟨p, -, rfl⟩ := Option.map_eq_some_iff.1 (Option.mem_toList.1 he)
    simp [hname]
  rw [part_compileKey hw, part_compileKey hw, htaking]

/-- A project with an artifact makes an image. -/
theorem builds_of_artifacts (hw : w.projects.Sorted)
    (h : ((compileKey producers present settings w (chosen w selected) key).part name).artifacts ≠
      []) :
    ∃ p, w.projects.get? name = some p ∧ declares p key ∧ makesImage producers p := by
  rw [part_compileKey hw] at h
  obtain ⟨a, ha⟩ := List.exists_mem_of_ne_nil _ h
  obtain ⟨e, he, ha⟩ := List.mem_filterMap.1 ha
  obtain ⟨hmem, hkeep⟩ := List.mem_filter.1 he
  obtain ⟨p, hp, rfl⟩ := Option.map_eq_some_iff.1 (Option.mem_toList.1 hmem)
  refine ⟨p, hp, (Bool.and_eq_true_iff.1 hkeep).1, ?_⟩
  rw [← isSome_artifactOf? producers settings w key (name, p), ha]
  rfl

/-- A key has a profile of a job exactly if a project of the job makes an image under it. -/
theorem mem_names_job (hw : w.projects.Sorted) {job : Workflow.Job} (hjob : job ∈ Workflow.jobs w) :
    key ∈ (profilesOf producers settings w present (chosen w job.projects)).map (·.name) ↔
      BuildsImage producers w job key := by
  obtain ⟨-, hsome⟩ := Workspace.mem_jobs.1 hjob
  have hempty : job.projects.isEmpty = false := by simpa using hsome
  unfold profilesOf
  rw [mem_names]
  constructor
  · rintro ⟨e, he, hkey, himage⟩
    obtain ⟨hmem, hname⟩ := List.mem_filter.1 he
    refine ⟨e.1, by simpa [hempty] using hname, e.2, ?_, hkey, himage⟩
    exact (Dict.get?_eq_some_iff hw).2 hmem
  · rintro ⟨name, hname, p, hp, hkey, himage⟩
    exact ⟨(name, p), mem_chosen hp (.inr hname), hkey, himage⟩

/-- A project with a declared deployer is in one job. What all projects together are compiled to
and what those of the job are compiled to agree on its part under each key for which the job has a
profile, and that is each key under which a project of the job makes an image; so no artifact is
lost, and the releases and the provider setups under the other keys are. -/
theorem jobs_keep_built_keys (hw : w.Normal) (producers : Producers) (present : Path → Bool)
    (settings : CompileSettings) {d : Deployer}
    (hd : (w.projects.get? name).bind Project.declaredDeployer = some d) :
    ∃ job ∈ Workflow.jobs w, job.deployer = d ∧ name ∈ job.projects ∧
      (∀ other ∈ Workflow.jobs w, name ∈ other.projects → other = job) ∧
      ∃ all profiles, compile producers present settings w [] = .ok all ∧
        compile producers present settings w job.projects = .ok profiles ∧
        (∀ own ∈ profiles, ∃ profile ∈ all, profile.name = own.name) ∧
        ∀ profile ∈ all,
          ((∃ own ∈ profiles, own.name = profile.name) ↔
            BuildsImage producers w job profile.name) ∧
          (∀ own ∈ profiles, own.name = profile.name → own.part name = profile.part name) ∧
          ((profile.part name).artifacts ≠ [] → BuildsImage producers w job profile.name) := by
  have hdeploys := Workspace.deploysBy_of_declared hw.sorted hd
  obtain ⟨job, hjob, -, hname⟩ := hdeploys.job
  obtain ⟨hprojects, hsome⟩ := Workspace.mem_jobs.1 hjob
  have hdeployer := (hdeploys.jobs job hjob).1 hname
  have hknown : ∀ other ∈ job.projects, other ∈ w.projects.keys := by
    intro other hother
    rw [hprojects, Workspace.mem_projectsUsing hw.sorted] at hother
    refine Dict.mem_keys_iff.2 fun hnone => ?_
    rw [hnone] at hother
    cases hother
  refine ⟨job, hjob, hdeployer, hname, fun other hother hmem => ?_, _, _,
    compile_eq_profilesOf hw (by simp), compile_eq_profilesOf hw hknown, ?_, ?_⟩
  · have hsame : other.deployer = job.deployer :=
      ((hdeploys.jobs other hother).1 hmem).trans hdeployer.symm
    have hlist : other.projects = job.projects := by
      rw [(Workspace.mem_jobs.1 hother).1, hprojects, hsame]
    cases other
    cases job
    exact congrArg₂ Workflow.Job.mk hsame hlist
  · intro own hown
    obtain ⟨other, -, p, hp, hkey, himage⟩ :=
      (mem_names_job hw.sorted hjob).1 (List.mem_map_of_mem hown)
    exact List.mem_map.1 (mem_names.2 ⟨(other, p), mem_chosen hp (.inl rfl), hkey, himage⟩)
  · intro profile hprofile
    have hwhole := profile_eq hprofile
    refine ⟨?_, fun own hown heq => ?_, fun hartifacts => ?_⟩
    · rw [← mem_names_job hw.sorted hjob, List.mem_map]
    · rw [profile_eq hown, heq, part_of_chosen hw.sorted hname, ← hwhole]
    · rw [hwhole] at hartifacts
      obtain ⟨p, hp, hkey, himage⟩ := builds_of_artifacts hw.sorted hartifacts
      exact ⟨name, hname, p, hp, hkey, himage⟩

end

/-- A service with an image and a site that is a bundle, in one environment and in two jobs. -/
def twoJobs : Workspace :=
  let spec (tool : String) : Spec := ⟨tool, [], [("dev", [])], none⟩
  let project (name build deploy : String) : String × Project := (name,
    { name, root := name, language := "", localOptions := [], metadata := [], extra := []
      architect := { build := some (spec build), deploy := some (spec deploy) } })
  { small with projects := [project "api" "ko" "helm", project "site" "vite" "firebase"] }

theorem twoJobs_normal : twoJobs.Normal := by
  refine ⟨fun key p h => ?_, show List.Pairwise (· < ·) ["api", "site"] by decide +kernel⟩
  simp only [twoJobs, Dict.get?] at h
  split_ifs at h with hapi hsite
  · rw [← hapi, ← Option.some.inj h]
  · rw [← hsite, ← Option.some.inj h]

/-- The job of the service is compiled to the part that the service has among all projects. -/
theorem twoJobs_keep_service :
    ∃ job ∈ Workflow.jobs twoJobs, job.deployer = .helm ∧ "api" ∈ job.projects ∧
      ∃ all profiles, compile (.builtin .builtin) (fun _ => false) {} twoJobs [] = .ok all ∧
        compile (.builtin .builtin) (fun _ => false) {} twoJobs job.projects = .ok profiles ∧
        ∀ profile ∈ all, (profile.part "api").artifacts ≠ [] →
          ∃ own ∈ profiles, own.name = profile.name ∧ own.part "api" = profile.part "api" := by
  have hd : (twoJobs.projects.get? "api").bind Project.declaredDeployer = some .helm := by
    decide +kernel
  obtain ⟨job, hjob, hdeployer, hname, -, all, profiles, hall, hprofiles, -, hkeys⟩ :=
    jobs_keep_built_keys twoJobs_normal (.builtin .builtin) (fun _ => false) {} hd
  refine ⟨job, hjob, hdeployer, hname, all, profiles, hall, hprofiles, fun profile hprofile ha => ?_⟩
  obtain ⟨hprofiles, hpart, hbuilds⟩ := hkeys profile hprofile
  obtain ⟨own, hown, heq⟩ := hprofiles.2 (hbuilds ha)
  exact ⟨own, hown, heq, hpart own hown heq⟩

/-- All projects together are compiled to a profile with the marker of the site; the job of the
site, which makes no image, is compiled to no profile. -/
theorem twoJobs_lose_site :
    (compile (.builtin .builtin) (fun _ => false) {} twoJobs []).toOption.map
        (List.map fun profile => (profile.name, (profile.part "site").setups)) =
      some [("dev", [⟨"site", .firebase⟩])] ∧
    ⟨.firebase, ["site"]⟩ ∈ Workflow.jobs twoJobs ∧
    compile (.builtin .builtin) (fun _ => false) {} twoJobs ["site"] = .ok [] := by
  have hjob : compile (.builtin .builtin) (fun _ => false) {} twoJobs ["site"] = .ok [] := by
    rw [compile_eq_profilesOf twoJobs_normal (by decide)]
    rfl
  exact ⟨by decide +kernel, by decide +kernel, hjob⟩

end Rollout.Profile
