import Mathlib.Tactic.Common
import Rollout.Proofs.Switch.EarlyEnd

/-!
# What a switch records

The workspace that a switch saves is the one that it loaded but for the deploy spec of the
project and the note of its deployer (`Recording.recorded_eq`). The config path of the new spec is
the one that the recorded project resolves to, and the recorded project has a job in the workflow.
-/

namespace Rollout.Switch

variable {m : Means} {r : Request} {disk : Disk} {o : Opening m r disk}

/-- A project that differs from another in its deploy spec and the note of its deployer only. -/
structure Redeployed (p : Project) (d : Deployer) (spec : Spec) (p' : Project) : Prop where
  rest : { p' with
    architect := { p'.architect with deploy := p.architect.deploy }, metadata := p.metadata } = p
  deploy : p'.deploy = some spec
  noted : p'.metadata.get? Project.deployerNote = some (.text d.id)
  notes : ∀ note, note ≠ Project.deployerNote → p'.metadata.get? note = p.metadata.get? note

/-- A workspace that differs from another in one project only. -/
structure Updated (w : Workspace) (key : String) (p' : Project) (w' : Workspace) : Prop where
  rest : { w' with projects := w.projects } = w
  keys : w'.projects.keys = w.projects.keys
  project : w'.projects.get? key = some p'
  others : ∀ other, other ≠ key → w'.projects.get? other = w.projects.get? other

theorem redeployed_switchedProject (p : Project) (d : Deployer) (spec : Spec) :
    Redeployed p d spec (switchedProject p d spec) where
  rest := rfl
  deploy := rfl
  noted := by
    change (p.metadata.insert _ _).get? _ = _
    rw [Dict.get?_insert, if_pos rfl]
  notes note hnote := by
    change (p.metadata.insert _ _).get? _ = _
    rw [Dict.get?_insert, if_neg (Ne.symm hnote)]

theorem Redeployed.name_eq {p p' : Project} {d : Deployer} {spec : Spec}
    (h : Redeployed p d spec p') : p'.name = p.name := by
  have hname := congrArg Project.name h.rest
  exact hname

theorem updated_insert {w : Workspace} (hw : w.Normal) {key : String} {p : Project}
    (h : w.projects.get? key = some p) (p' : Project) :
    Updated w key p' { w with projects := w.projects.insert key p' } where
  rest := rfl
  keys := Dict.keys_insert_of_mem hw.sorted (Dict.mem_keys_iff.2 (by simp [h]))
  project := by rw [Dict.get?_insert, if_pos rfl]
  others other hother := by rw [Dict.get?_insert, if_neg (Ne.symm hother)]

/-! ### The config path -/

theorem text?_eq_nonBlank? {options : OptionMap} {key s : String}
    (h : options.get? key = some (.text s)) : options.text? key = Text.nonBlank? s := by
  rw [OptionMap.text?, h]
  rfl

theorem isBlank_of_text? {options : OptionMap} {key s : String} (h : options.text? key = some s) :
    Text.isBlank s = false := by
  obtain ⟨value, -, hvalue⟩ := Option.bind_eq_some_iff.1 h
  obtain ⟨text, -, htext⟩ := Option.bind_eq_some_iff.1 hvalue
  obtain ⟨hblank, rfl⟩ := Text.nonBlank?_eq_some_iff.1 htext
  exact hblank

theorem isBlank_configPathOf (p : Project) : Text.isBlank (Settings.configPathOf p) = false := by
  unfold Settings.configPathOf
  cases h : p.deploy.bind (·.options.text? Settings.configPathKey) with
  | none => decide
  | some path =>
    obtain ⟨spec, -, hpath⟩ := Option.bind_eq_some_iff.1 h
    exact isBlank_of_text? hpath

/-- The config path of a plan is not blank, wherever it is from. -/
theorem isBlank_configPathFor (p : Project) (r : Request) :
    Text.isBlank (configPathFor p r) = false := by
  unfold configPathFor
  cases hasked : r.configPath.bind Text.nonBlank? with
  | some path =>
    obtain ⟨text, -, htext⟩ := Option.bind_eq_some_iff.1 hasked
    obtain ⟨hblank, rfl⟩ := Text.nonBlank?_eq_some_iff.1 htext
    exact hblank
  | none =>
    cases hanswered : r.answers.text? Settings.configPathKey with
    | some path => exact isBlank_of_text? hanswered
    | none =>
      cases hold : p.deploy with
      | none => simp [oldConfigPath?, hold]; decide
      | some spec => simpa [oldConfigPath?, hold] using isBlank_configPathOf p

theorem Opening.get?_configPath (o : Opening m r disk) :
    o.spec.options.get? Settings.configPathKey = some (.text o.plan.configPath) := by
  change (Dict.insert _ _ _).get? _ = _
  rw [Dict.get?_insert, if_pos rfl]

theorem configPathOf_of_get? {p : Project} {spec : Spec} {path : String} (h : p.deploy = some spec)
    (hget : spec.options.get? Settings.configPathKey = some (.text path))
    (hpath : Text.isBlank path = false) : Settings.configPathOf p = path := by
  have htext : spec.options.text? Settings.configPathKey = some path := by
    rw [text?_eq_nonBlank? hget]
    exact Text.nonBlank?_eq_some_iff.2 ⟨hpath, rfl⟩
  rw [Settings.configPathOf, h, Option.bind_some, htext, Option.getD_some]

/-- The recorded project resolves to the config path of the plan. -/
theorem Opening.configPathOf_eq (o : Opening m r disk) {p' : Project}
    (h : p'.deploy = some o.spec) : Settings.configPathOf p' = o.plan.configPath :=
  configPathOf_of_get? h o.get?_configPath (isBlank_configPathFor o.project r)

/-! ### The recorded workspace -/

/-- A project deploys with the deployer of a switch if its spec has the tool. -/
theorem Opening.deploysWith_of_tool (o : Opening m r disk) {p : Project} {s : Spec}
    (h : p.deploy = some s) (htool : s.tool = o.spec.tool) : deploysWith p o.deployer := by
  have hdeployer : p.specDeployer? = some o.deployer := by
    rw [Project.specDeployer?, h, Option.bind_some, Spec.deployer, htool]
    change ((Deployer.read o.deployer.id).mapError _).toOption = _
    rw [Deployer.read_id]
    rfl
  exact decide_eq_true hdeployer

theorem declaredDeployer_of_noted {p : Project} {d : Deployer}
    (h : p.metadata.get? Project.deployerNote = some (.text d.id)) :
    p.declaredDeployer = some d := by
  rw [Project.declaredDeployer, h]
  simp only [Option.bind_some, OptionValue.asText?, Deployer.read?_id, Option.some_or]

/-- A workspace with a project that deploys has a job for it. -/
theorem jobs_ne_nil {w : Workspace} (hw : w.projects.Sorted) {key : String} {p : Project}
    {d : Deployer} (h : w.projects.get? key = some p) (hd : p.declaredDeployer = some d) :
    Workflow.jobs w ≠ [] := by
  have hmem : key ∈ w.projectsUsing d := by
    refine List.mem_map.2 ⟨(key, p), List.mem_filter.2 ⟨(Dict.get?_eq_some_iff hw).1 h, ?_⟩, rfl⟩
    simpa using hd
  have hactive : d ∈ w.activeDeployers := by
    refine List.mem_filter.2 ⟨by cases d <;> decide, ?_⟩
    simpa using List.ne_nil_of_mem hmem
  exact List.ne_nil_of_mem (List.mem_map_of_mem hactive)

variable {st : Staging o} {rt : Retirement st} {pr : Promotion rt}

/-- The workspace that is saved is the loaded one but for what a switch is to change. -/
theorem Recording.recorded_eq (hload : m.LoadsNormal) (rc : Recording pr) :
    ∃ p', Redeployed o.project o.deployer o.spec p' ∧
      Updated o.workspace r.project p' rc.workspace ∧ rc.workspace.projects.Sorted := by
  have hw := hload disk o.workspace o.base o.loading
  have hfound := Workspace.project_eq_ok.1 o.found
  obtain ⟨-, hswitched⟩ := switchedWorkspace_eq_ok hw.named o.found o.deployer o.spec
  refine ⟨_, redeployed_switchedProject _ _ _, ?_⟩
  rw [Except.ok.inj (rc.switched.symm.trans hswitched)]
  exact ⟨updated_insert hw hfound _, Dict.sorted_insert hw.sorted _ _⟩

end Rollout.Switch
